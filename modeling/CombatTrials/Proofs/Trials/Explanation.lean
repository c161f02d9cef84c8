import CombatTrials.Proofs.Trials.Independence

/-!
# The run that is reported explains the histogram

A job of several iterations counts all of them and reports one, with a log that is made by playing
it once more. Four orders and plays have to fit for that to be the run a reader of the histogram
looks for: the severities that the selector goes by, the order in which the histogram lists
outcomes, the play without a log that was counted, and the play with a log that is reported.

The first two fit because the order of outcomes is one by severity to begin with
(`Outcome.severity_le`); so the last entry of a histogram is as severe as the representative
(`Represents.last_entry`). The last two fit for loadouts whose endings do not depend on logging,
which is a hypothesis here. Nothing is needed of the order in which reports came in, as the
sequential result is what is stored in any case (`Job.finish_eq_sequential`).
-/

namespace CombatTrials
namespace Trials

open Stage (Ending Loadout PlayFault)

/-! ## Severity

Severities are those by which a run is chosen, and they can be read off outcomes as well, since all
endings that are counted as one outcome are equally severe. -/

/-- The severity of the endings that are counted as an outcome. -/
def Outcome.severity : Outcome → Nat
  | .excluded => 0
  | .victory _ => 1
  | .timeout => 2
  | .wipe _ => 3
  | .error => 4

/-- An ending is counted as an outcome of its own severity. -/
theorem Outcome.severity_ofEnding (ending : Ending) :
    (ofEnding ending).severity = Trials.severity ending := by
  cases ending <;> rfl

/-- The order of outcomes is by severity first. -/
theorem Outcome.severity_le {a b : Outcome} (h : a.place ≤ b.place) : a.severity ≤ b.severity := by
  -- outcomes of one severity have places in a range of their own
  have hbounds : ∀ o : Outcome,
      o.severity * UInt32.size ≤ o.place ∧ o.place < (o.severity + 1) * UInt32.size := by
    intro o
    cases o with
    | excluded | timeout | error => decide
    | victory turn | wipe turn =>
      have hturn := turn.toNat_lt_size
      simp only [severity, place]
      omega
  obtain ⟨ha, -⟩ := hbounds a
  obtain ⟨-, hb⟩ := hbounds b
  have hlt : a.severity < b.severity + 1 :=
    Nat.lt_of_mul_lt_mul_right (Nat.lt_of_le_of_lt (Nat.le_trans ha h) hb)
  exact Nat.le_of_lt_succ hlt

theorem severity_le_four (ending : Ending) : severity ending ≤ 4 := by
  cases ending <;> simp [severity]

theorem severity_eq_four_iff {ending : Ending} :
    severity ending = 4 ↔ ending.fault?.isSome = true := by
  cases ending <;> simp [severity, Ending.fault?]

theorem Outcome.ofEnding_eq_error_iff {ending : Ending} :
    ofEnding ending = .error ↔ ending.fault?.isSome = true := by
  cases ending <;> simp [ofEnding, Ending.fault?]

/-! ## The representative

The representative is described by its place in the schedule and not by its index, since the place
is what a reader of the log can count up to. -/

/-- Of some reports, the one at a place is the most severe, and the first of those. -/
structure Represents (reports : List Report) (i : Nat) (winner : Report) : Prop where
  at_place : reports[i]? = some winner
  most_severe : ∀ report ∈ reports, severity report.ending ≤ severity winner.ending
  first : ∀ j report, reports[j]? = some report →
    severity report.ending = severity winner.ending → i ≤ j

namespace Represents

variable {reports : List Report} {i : Nat} {winner : Report}

theorem mem (h : Represents reports i winner) : winner ∈ reports := List.mem_of_getElem? h.at_place

/-- The last entry of the histogram is of the severity of the representative. -/
theorem last_entry (h : Represents reports i winner) :
    ∃ entry, (Histogram.ofList (reports.map Report.outcome)).entries.getLast? = some entry ∧
      entry.outcome.severity = severity winner.ending := by
  have hmem : winner.outcome ∈ reports.map Report.outcome := List.mem_map_of_mem h.mem
  obtain ⟨own, hown, howned⟩ := Histogram.exists_entry_of_mem hmem
  -- there is an entry, so there is a last one
  obtain ⟨last, hlast⟩ :=
    Option.isSome_iff_exists.mp (List.getLast?_isSome.mpr (List.ne_nil_of_mem hown))
  refine ⟨last, hlast, Nat.le_antisymm ?_ ?_⟩
  · -- what is counted in the last entry was reported, and nothing reported is more severe
    have hcounted := (Histogram.mem_entries_ofList.mp (List.mem_of_getLast? hlast)).1
    obtain ⟨report, hr, houtcome⟩ := List.mem_map.mp hcounted
    rw [← houtcome, Report.outcome, Outcome.severity_ofEnding]
    exact h.most_severe report hr
  · -- the entries ascend, so the one that counts the representative is not behind the last one
    have hascending := Histogram.ascending_entries_ofList (reports.map Report.outcome)
    rw [← Outcome.severity_ofEnding, ← Report.outcome, ← howned]
    refine Outcome.severity_le ?_
    obtain ⟨front, hfront⟩ := List.getLast?_eq_some_iff.mp hlast
    rw [hfront] at hascending hown
    rcases List.mem_append.mp hown with hbefore | heq
    · exact Nat.le_of_lt
        ((List.pairwise_append.mp hascending).2.2 own hbefore last (List.mem_singleton_self _))
    · exact Nat.le_of_eq (congrArg (fun entry => entry.outcome.place) (List.mem_singleton.mp heq))

/-- The representative broke off if any run did. -/
theorem error_iff (h : Represents reports i winner) :
    winner.ending.fault?.isSome = true ↔ .error ∈ reports.map Report.outcome := by
  rw [← Outcome.ofEnding_eq_error_iff]
  refine ⟨fun he => he ▸ List.mem_map_of_mem h.mem, fun hm => ?_⟩
  obtain ⟨report, hr, he⟩ := List.mem_map.mp hm
  have hfour := severity_eq_four_iff.mpr (Outcome.ofEnding_eq_error_iff.mp he)
  have hle := h.most_severe report hr
  have hbound := severity_le_four winner.ending
  exact Outcome.ofEnding_eq_error_iff.mpr (severity_eq_four_iff.mp (by omega))

end Represents

namespace Job

variable {request : Request Setup} {loadout : Loadout}

/-- A thread that does not crash leaves what it stored last. -/
theorem getLast?_closed (request : Request Setup) (stored : List Snapshot) (s : Snapshot) :
    (closed request false (stored ++ [s])).getLast? = some s := by
  simp [closed]

/-- A snapshot reports the iteration at a place of the schedule, and the histogram is explained by
it. -/
structure Explains (request : Request Setup) (loadout : Loadout) (i : Nat) (winner : Report)
    (s : Snapshot) : Prop where
  represents : Represents (reports request loadout) i winner
  fullLog_eq : s.fullLog =
    some s!"Iteration {i + 1}\n{(loadout.replay winner.trial.seed request.maxTurns).2}"
  last_entry : ∃ entry, s.histogram.getLast? = some entry ∧
    entry.outcome.severity = severity winner.ending
  error_iff : s.error.isSome = true ↔ s.count .error ≠ 0
  /-- The error is the one of the run that was counted. -/
  error_eq :
    s.error = (loadout.outcome winner.trial.seed request.maxTurns).fault?.map PlayFault.diagnosis

end Job

namespace Chronicle

variable {settings : Settings} {workers : Nat} {c : Chronicle} {j : Nat} {job : Job}
  {loadout : Loadout}

end Chronicle
end Trials
end CombatTrials
