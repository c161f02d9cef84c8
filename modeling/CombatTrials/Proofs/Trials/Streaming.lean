import CombatTrials.Proofs.Trials.Collecting

/-!
# Consuming a stream

A collector takes the reports of a stream in order, as many as it expects and no more
(`consume_start_eq`). On the way it publishes its progress, once for each time the number of reports
is a multiple of its interval. So the snapshots are known without following the reports: there is
one for each multiple that is reached, and it is the snapshot of the reports up to there
(`published_eq`).

What a snapshot says of reports is `Counts`, which does not mention how histograms are kept. The
number of reports has thirty-two bits because the expected number has, and so no count passes the
end.
-/

namespace CombatTrials
namespace Trials
namespace Collector

/-- A snapshot of a job that goes on is the count of some reports: how many there were, and how
often each outcome occurred among them. -/
structure Counts (expected : UInt32) (reports : List Report) (s : Snapshot) : Prop where
  max_eq : s.maxIterations = expected
  completed_eq : s.completedIterations.toNat = reports.length
  ascending : s.histogram.Pairwise fun a b => a.outcome < b.outcome
  mem_iff : ∀ entry, entry ∈ s.histogram ↔ entry.outcome ∈ reports.map Report.outcome ∧
    entry.count.toNat = (reports.map Report.outcome).count entry.outcome
  fullLog_eq : s.fullLog = none
  cancelled_eq : s.cancelled = false

/-- What a snapshot counts does not depend on its error. -/
theorem Counts.withError {expected : UInt32} {reports : List Report} {s : Snapshot}
    (h : Counts expected reports s) (error : String) :
    Counts expected reports (s.withError error) :=
  ⟨h.max_eq, h.completed_eq, h.ascending, h.mem_iff, h.fullLog_eq, h.cancelled_eq⟩

section Progress

variable (expected interval : UInt32)

/-- The progress of a collector is the count of the reports that came in. -/
theorem counts_snapshot {reports : List Report} (h : reports.length < UInt32.size) :
    Counts expected reports (after expected interval reports).snapshot where
  max_eq := by rw [snapshot_after]; rfl
  completed_eq := by
    rw [snapshot_after]
    exact UInt32.toNat_ofNat_of_lt' h
  ascending := by
    rw [snapshot_after]
    exact Histogram.ascending_entries_ofList _
  mem_iff := by
    intro entry
    rw [snapshot_after]
    refine Histogram.mem_entries_ofList.trans (and_congr_right fun _ => ?_)
    -- no outcome occurs more often than there are reports
    have hlt : (reports.map Report.outcome).count entry.outcome < UInt64.size := by
      refine Nat.lt_of_le_of_lt List.count_le_length ?_
      rw [List.length_map]
      exact Nat.lt_trans h (by decide)
    rw [← UInt64.toNat_inj, UInt64.toNat_ofNat_of_lt' hlt]
  fullLog_eq := by rw [snapshot_after]; rfl
  cancelled_eq := by rw [snapshot_after]; rfl

/-! ## When progress is published

Progress is due when the number of reports is a multiple of the period, so there are as many
snapshots as multiples, and each is that of the reports up to its multiple. -/

/-- How many reports there are from one snapshot to the next. -/
def period (interval : UInt32) : Nat := max 1 interval.toNat

theorem period_pos : 0 < period interval := Nat.lt_of_lt_of_le Nat.one_pos (Nat.le_max_left _ _)

theorem toNat_max_one : (max 1 interval).toNat = period interval := by
  unfold period
  by_cases h : (1 : UInt32) ≤ interval
  · have hle : 1 ≤ interval.toNat := UInt32.le_iff_toNat_le.mp h
    rw [UInt32.max_def, if_pos h, Nat.max_eq_right hle]
  · have hlt : ¬ 1 ≤ interval.toNat := fun hle => h (UInt32.le_iff_toNat_le.mpr hle)
    rw [UInt32.max_def, if_neg h, Nat.max_eq_left (by omega)]
    rfl

/-- A snapshot is due with every report that makes their number a multiple of the period. -/
theorem record_after {reports : List Report} (report : Report)
    (h : reports.length + 1 < UInt32.size) :
    ((after expected interval reports).record report).2 =
      if period interval ∣ reports.length + 1 then
        some (after expected interval (reports ++ [report])).snapshot
      else none := by
  have hdue : (UInt32.ofNat reports.length + 1) % max 1 interval = 0 ↔
      period interval ∣ reports.length + 1 := by
    have hcompleted : (UInt32.ofNat reports.length + 1).toNat = reports.length + 1 := by
      rw [show UInt32.ofNat reports.length + 1 = UInt32.ofNat (reports.length + 1) from
        (UInt32.ofNat_add _ _).symm, UInt32.toNat_ofNat_of_lt' h]
    rw [← UInt32.toNat_inj, UInt32.toNat_mod, hcompleted, toNat_max_one]
    exact (Nat.dvd_iff_mod_eq_zero).symm
  rw [after_concat, after_eq]
  simp only [record, hdue]

/-- **What is published on the way** is the progress at every multiple of the period. -/
theorem published_eq {reports : List Report} (h : reports.length < UInt32.size) :
    published expected interval reports =
      (List.range (reports.length / period interval)).map fun j =>
        (after expected interval (reports.take ((j + 1) * period interval))).snapshot := by
  induction reports using List.reverseRecOn with
  | nil => simp [published, recordAll]
  | append_singleton rest last ih =>
    rw [List.length_append, List.length_singleton] at h
    -- the snapshots so far are of reports that are all among the earlier ones
    have hrest : ∀ j ∈ List.range (rest.length / period interval),
        (rest ++ [last]).take ((j + 1) * period interval) =
          rest.take ((j + 1) * period interval) := by
      intro j hj
      have hle : (j + 1) * period interval ≤ rest.length :=
        (Nat.le_div_iff_mul_le (period_pos interval)).mp (List.mem_range.mp hj)
      exact List.take_append_of_le_length hle
    rw [published_concat, record_after expected interval last h, ih (by omega), List.length_append,
      List.length_singleton, Nat.succ_div]
    split
    · -- a multiple of the period is reached, and there is one more snapshot
      next hdvd =>
      have hwhole : (rest.length / period interval + 1) * period interval = rest.length + 1 := by
        rw [← Nat.succ_div_of_dvd hdvd, Nat.div_mul_cancel hdvd]
      rw [List.range_succ, List.map_append, List.map_singleton, hwhole]
      rw [List.take_of_length_le (by simp)]
      congr 1
      apply List.map_congr_left
      intro j hj
      rw [hrest j hj]
    · rw [Nat.add_zero, Option.toList_none, List.append_nil]
      apply List.map_congr_left
      intro j hj
      rw [hrest j hj]

/-- There is one snapshot for each multiple of the period that is reached. -/
theorem length_published {reports : List Report} (h : reports.length < UInt32.size) :
    (published expected interval reports).length = reports.length / period interval := by
  rw [published_eq expected interval h, List.length_map, List.length_range]

/-- Each of them counts the reports up to its multiple, and has no error. -/
theorem counts_of_published {reports : List Report} (h : reports.length < UInt32.size) {j : Nat}
    {s : Snapshot} (hs : (published expected interval reports)[j]? = some s) :
    (j + 1) * period interval ≤ reports.length ∧ s.error = none ∧
      Counts expected (reports.take ((j + 1) * period interval)) s := by
  rw [published_eq expected interval h, List.getElem?_map] at hs
  obtain ⟨j', hj, rfl⟩ := Option.map_eq_some_iff.mp hs
  obtain ⟨hlt, rfl⟩ := List.getElem?_eq_some_iff.mp hj
  rw [List.length_range] at hlt
  rw [List.getElem_range]
  refine ⟨(Nat.le_div_iff_mul_le (period_pos interval)).mp hlt, rfl,
    counts_snapshot expected interval ?_⟩
  exact Nat.lt_of_le_of_lt (List.length_take_le' _ _) h

/-! ## Streams

A stream is longer than expected, or it is not. In the first case some of it is left, and in the
second, if it is shorter, the job says so. -/

theorem consume_start_of_lt {reports : List Report} (h : reports.length < expected.toNat) :
    (start expected interval).consume reports =
      ⟨after expected interval reports, published expected interval reports, [],
        some ⟨.ofNat reports.length, expected⟩⟩ := by
  have hlength : reports.length < UInt32.size := Nat.lt_trans h expected.toNat_lt_size
  have hwait : (after expected interval reports).isWaiting = true :=
    (isWaiting_after_iff expected interval hlength).mpr h
  rw [consume_eq (by simpa [start] using Nat.le_of_lt h)]
  change Consumption.mk (after expected interval reports) _ []
    (if (after expected interval reports).isWaiting then
      some ⟨(after expected interval reports).completed, (after expected interval reports).expected⟩
    else none) = _
  rw [if_pos hwait, after_eq]
  rfl

theorem consume_start_append {reports : List Report} (h : reports.length = expected.toNat)
    (later : List Report) :
    (start expected interval).consume (reports ++ later) =
      ⟨after expected interval reports, published expected interval reports, later, none⟩ := by
  have hlength : reports.length < UInt32.size := h ▸ expected.toNat_lt_size
  have hdone : (after expected interval reports).isWaiting = false := by
    rw [Bool.eq_false_iff]
    exact mt (isWaiting_after_iff expected interval hlength).mp (by omega)
  rw [consume_append later (by simp [start, h])]
  change (let rest := (after expected interval reports).consume later
    ({ rest with published := published expected interval reports ++ rest.published } :
      Consumption)) = _
  rw [consume_of_not_isWaiting hdone]
  simp

/-- **What consuming a stream comes to**: as many reports as are expected are taken, if there are so
many. -/
theorem consume_start_eq (reports : List Report) :
    (start expected interval).consume reports =
      let taken := min expected.toNat reports.length
      ⟨after expected interval (reports.take taken),
        published expected interval (reports.take taken), reports.drop taken,
        if reports.length < expected.toNat then some ⟨.ofNat taken, expected⟩ else none⟩ := by
  dsimp only
  by_cases hshort : reports.length < expected.toNat
  · rw [consume_start_of_lt expected interval hshort, Nat.min_eq_right (Nat.le_of_lt hshort),
      List.take_length, List.drop_length, if_pos hshort]
  · have hle : expected.toNat ≤ reports.length := Nat.not_lt.mp hshort
    have happend := consume_start_append expected interval (List.length_take_of_le hle)
      (reports.drop expected.toNat)
    rw [List.take_append_drop] at happend
    rw [happend, Nat.min_eq_left hle, if_neg hshort]

/-- The snapshot of a job whose reports ended early. -/
theorem counts_fail {reports : List Report} (h : reports.length < UInt32.size) :
    let last := (after expected interval reports).fail ⟨.ofNat reports.length, expected⟩
    last.error =
      some s!"result stream closed after {reports.length} of {expected.toNat} iterations" ∧
      Counts expected reports last := by
  refine ⟨?_, (counts_snapshot expected interval h).withError _⟩
  -- The message counts in `u32`, which holds the number of reports as long as it is below `2³²`.
  have hreceived : (UInt32.ofNat reports.length).toNat = reports.length :=
    UInt32.toNat_ofNat_of_lt' h
  have hmessage (received : UInt32) : (⟨received, expected⟩ : Shortfall).message =
      s!"result stream closed after {received.toNat} of {expected.toNat} iterations" := rfl
  have hlast := hmessage (.ofNat reports.length)
  rw [hreceived] at hlast
  exact congrArg some hlast

end Progress

/-- **A stream is consumed up to the expected number of reports.** The reports are recorded in
order, and those that are not taken are left. Progress is published once for each multiple of the
interval that is reached, where an interval of zero counts as one, and counts the reports up to
there. There is a shortfall exactly if the stream is too short; it says how many reports came and
how many were expected, and so does the error of the one snapshot that follows then, which counts
all that came. -/
theorem consumes_expected_reports (expected interval : UInt32) (reports : List Report) :
    let taken := min expected.toNat reports.length
    let consumption := (start expected interval).consume reports
    consumption.collector = ((start expected interval).recordAll (reports.take taken)).1 ∧
    consumption.left = reports.drop taken ∧
    consumption.published.length = taken / period interval ∧
    (∀ j s, consumption.published[j]? = some s →
      s.completedIterations.toNat = (j + 1) * period interval ∧ s.error = none ∧
      Counts expected (reports.take ((j + 1) * period interval)) s) ∧
    (consumption.shortfall = none ↔ expected.toNat ≤ reports.length) ∧
    ∀ shortfall, consumption.shortfall = some shortfall →
      shortfall.received.toNat = taken ∧ shortfall.expected = expected ∧
      let last := consumption.collector.fail shortfall
      last.completedIterations.toNat = taken ∧
      last.error = some s!"result stream closed after {taken} of {expected.toNat} iterations" ∧
      Counts expected (reports.take taken) last := by
  intro taken consumption
  have hlength : (reports.take taken).length = taken :=
    List.length_take_of_le (Nat.min_le_right _ _)
  have hsize : taken < UInt32.size :=
    Nat.lt_of_le_of_lt (Nat.min_le_left _ _) expected.toNat_lt_size
  have hlt : (reports.take taken).length < UInt32.size := by rwa [hlength]
  have hconsumption : consumption =
      ⟨after expected interval (reports.take taken),
        published expected interval (reports.take taken), reports.drop taken,
        if reports.length < expected.toNat then some ⟨.ofNat taken, expected⟩ else none⟩ :=
    consume_start_eq expected interval reports
  rw [hconsumption]
  refine ⟨rfl, rfl, ?_, ?_, by simp, ?_⟩
  · exact (length_published expected interval hlt).trans (by rw [hlength])
  · intro j s hj
    obtain ⟨hle, herror, hcounts⟩ := counts_of_published expected interval hlt hj
    rw [hlength] at hle
    rw [List.take_take, Nat.min_eq_left hle] at hcounts
    -- the multiple is reached within the reports that were taken
    have htake : (reports.take ((j + 1) * period interval)).length = (j + 1) * period interval :=
      List.length_take_of_le (Nat.le_trans hle (Nat.min_le_right _ _))
    exact ⟨hcounts.completed_eq.trans htake, herror, hcounts⟩
  · intro shortfall hshortfall
    dsimp only at hshortfall ⊢
    split at hshortfall
    · obtain rfl := Option.some.inj hshortfall
      have hfail := counts_fail expected interval hlt
      rw [hlength] at hfail
      obtain ⟨herror, hcounts⟩ := hfail
      exact ⟨UInt32.toNat_ofNat_of_lt' hsize, rfl, hcounts.completed_eq.trans hlength,
        herror, hcounts⟩
    · cases hshortfall

end Collector
end Trials
end CombatTrials
