import Mathlib.Data.List.Induction
import Mathlib.Data.List.Nodup
import Mathlib.Data.List.Perm.Basic
import CombatTrials.Trials.Selector

/-!
# The choice does not depend on the order

A selector sees reports one after the other and keeps one of them. `IsChoice` says which one that
has to be without an order: one that was offered and that none of those offered outranks.
`isChoice_ofList` shows that the selector keeps such a one, whatever it is offered.

Among equally severe reports the index decides, so there is one choice only as long as no two
reports have the same index (`IsChoice.unique`). The trials of a job have indices of their own, and
with that the choice for a job is the same for every order of its reports (`ofList_perm`).

Where indices are repeated the order does show. A report only takes the place of another that it
outranks, so of those that nothing outranks the first is kept (`FirstOfBest`), and of every list
there is just one (`FirstOfBest.unique`).
-/

namespace CombatTrials
namespace Trials

open List (Perm)

/-- What a report enters the choice with. -/
def Report.candidate (report : Report) : Nat × Trial := (severity report.ending, report.trial)

namespace Selector

/-- Whether the first of two candidates is to be reported rather than the second. -/
def Outranks (a b : Nat × Trial) : Prop := b.1 < a.1 ∨ (a.1 = b.1 ∧ a.2.index < b.2.index)

/-- What a choice among some reports has to be: none of no reports, else a candidate that none of
them outranks. -/
def IsChoice (reports : List Report) : Option (Nat × Trial) → Prop
  | none => reports = []
  | some best =>
    (∃ report ∈ reports, report.candidate = best) ∧
      ∀ report ∈ reports, ¬ Outranks report.candidate best

/-- The selector of a job after some of its reports came in. -/
def ofList (reports : List Report) : Selector := reports.foldl offer {}

/-! ## Rank

Candidates are compared by severity and then by index. Not outranking is transitive, and two
candidates may be equal in rank without being the same. -/

theorem not_outranks_self (a : Nat × Trial) : ¬ Outranks a a := by
  rintro (h | ⟨-, h⟩)
  · exact Nat.lt_irrefl _ h
  · exact UInt32.lt_irrefl _ h

theorem not_outranks_of_outranks {a b c : Nat × Trial} (hab : ¬ Outranks a b) (hcb : Outranks c b) :
    ¬ Outranks a c := by
  simp only [Outranks, UInt32.lt_iff_toNat_lt] at *
  omega

theorem outranks_of_not_outranks {a b c : Nat × Trial} (hab : Outranks a b) (hcb : ¬ Outranks c b) :
    Outranks a c := by
  simp only [Outranks, UInt32.lt_iff_toNat_lt] at *
  omega

/-- Two candidates of which neither outranks the other are equally severe and have one index. -/
theorem index_eq_of_not_outranks {a b : Nat × Trial} (hab : ¬ Outranks a b) (hba : ¬ Outranks b a) :
    a.1 = b.1 ∧ a.2.index = b.2.index := by
  simp only [Outranks, UInt32.lt_iff_toNat_lt] at hab hba
  exact ⟨by omega, UInt32.toNat_inj.mp (by omega)⟩

/-- A selector that has chosen prefers the reports that outrank its choice. -/
theorem prefers_iff {s : Selector} {best : Nat × Trial} (h : s.best = some best) (report : Report) :
    s.prefers report = true ↔ Outranks report.candidate best := by
  simp [prefers, h, Outranks, Report.candidate]

/-! ## What the selector keeps

By induction on the reports, from behind: the last one takes the place of the choice or it does not.
-/

theorem ofList_concat (reports : List Report) (report : Report) :
    ofList (reports ++ [report]) = (ofList reports).offer report := by
  simp [ofList]

/-- The selector keeps a choice among the reports it was offered. -/
theorem isChoice_ofList (reports : List Report) : IsChoice reports (ofList reports).best := by
  induction reports using List.reverseRecOn with
  | nil => rfl
  | append_singleton rest last ih =>
    rw [ofList_concat]
    unfold offer
    cases hb : (ofList rest).best with
    -- nothing was offered so far, so the last report is the only one
    | none =>
      rw [hb] at ih
      have hrest : rest = [] := ih
      have hp : (ofList rest).prefers last = true := by simp [prefers, hb]
      rw [if_pos hp, hrest]
      refine ⟨⟨last, by simp, rfl⟩, ?_⟩
      intro report hr
      rw [List.mem_singleton.mp hr]
      exact not_outranks_self last.candidate
    | some best =>
      rw [hb] at ih
      obtain ⟨⟨winner, hmem, hwinner⟩, hbest⟩ := ih
      split
      · next hp =>
        have hout := (prefers_iff hb last).mp hp
        refine ⟨⟨last, by simp, rfl⟩, ?_⟩
        intro report hr
        -- those that did not outrank the old one do not outrank the one that did
        rcases List.mem_append.mp hr with hr | hr
        · exact not_outranks_of_outranks (hbest report hr) hout
        · rw [List.mem_singleton.mp hr]
          exact not_outranks_self last.candidate
      · next hp =>
        have hout := mt (prefers_iff hb last).mpr hp
        rw [hb]
        refine ⟨⟨winner, List.mem_append_left _ hmem, hwinner⟩, ?_⟩
        intro report hr
        rcases List.mem_append.mp hr with hr | hr
        · exact hbest report hr
        · rwa [List.mem_singleton.mp hr]

/-! ## There is one choice

Equal in rank means equal in index, so with distinct indices two choices are one. A permutation does
not change which indices there are. -/

/-- What a choice has to be does not depend on the order. -/
theorem IsChoice.perm {reports reports' : List Report} {best : Option (Nat × Trial)}
    (h : IsChoice reports best) (hp : Perm reports reports') : IsChoice reports' best := by
  cases best with
  | none =>
    have h : reports = [] := h
    exact List.Perm.eq_nil (h ▸ hp.symm)
  | some best =>
    obtain ⟨⟨winner, hmem, hwinner⟩, hbest⟩ := h
    exact ⟨⟨winner, hp.mem_iff.mp hmem, hwinner⟩, fun report hr => hbest report (hp.mem_iff.mpr hr)⟩

/-- There is one choice among reports without a repeated index, for of two neither outranks the
other. -/
theorem IsChoice.unique {reports : List Report} {best best' : Option (Nat × Trial)}
    (hn : (reports.map fun report => report.trial.index).Nodup) (h : IsChoice reports best)
    (h' : IsChoice reports best') : best = best' := by
  cases best with
  | none =>
    cases best' with
    | none => rfl
    | some best' =>
      obtain ⟨⟨winner, hmem, -⟩, -⟩ := h'
      have h : reports = [] := h
      exact absurd (h ▸ hmem) List.not_mem_nil
  | some best =>
    obtain ⟨⟨winner, hmem, rfl⟩, hbest⟩ := h
    cases best' with
    | none =>
      have h' : reports = [] := h'
      exact absurd (h' ▸ hmem) List.not_mem_nil
    | some best' =>
      obtain ⟨⟨winner', hmem', rfl⟩, hbest'⟩ := h'
      -- neither outranks the other
      have hindex := (index_eq_of_not_outranks (hbest' winner hmem) (hbest winner' hmem')).2
      rw [List.inj_on_of_nodup_map hn hmem hmem' hindex]

theorem ofList_perm {reports reports' : List Report} (hp : Perm reports reports')
    (hn : (reports.map fun report => report.trial.index).Nodup) :
    ofList reports = ofList reports' := by
  have hn' := (hp.map fun report => report.trial.index).nodup_iff.mp hn
  have h := IsChoice.unique hn' ((isChoice_ofList reports).perm hp) (isChoice_ofList reports')
  exact congrArg Selector.mk h

theorem selected_mem {reports : List Report} {trial : Trial}
    (h : (ofList reports).selected = some trial) : ∃ report ∈ reports, report.trial = trial := by
  obtain ⟨best, hb, rfl⟩ := Option.map_eq_some_iff.mp h
  have hchoice := isChoice_ofList reports
  rw [hb] at hchoice
  obtain ⟨⟨winner, hmem, rfl⟩, -⟩ := hchoice
  exact ⟨winner, hmem, rfl⟩

/-! ## Which of the best

With repeated indices several reports can be equally good. The first of them is kept, because a
report that only ties does not take its place. -/

/-- A report is the first that was offered of those that are the most severe and among these have
the least index. -/
structure FirstOfBest (reports : List Report) (winner : Report) : Prop where
  severest : ∀ report ∈ reports, severity report.ending ≤ severity winner.ending
  least : ∀ report ∈ reports, severity report.ending = severity winner.ending →
    winner.trial.index ≤ report.trial.index
  first : ∃ before after, reports = before ++ winner :: after ∧ ∀ report ∈ before,
    ¬ (severity report.ending = severity winner.ending ∧ report.trial.index = winner.trial.index)

/-- A report does not outrank another that is more severe, or as severe and of no greater index. -/
theorem not_outranks_iff {a b : Report} : ¬ Outranks a.candidate b.candidate ↔
    severity a.ending ≤ severity b.ending ∧
      (severity a.ending = severity b.ending → b.trial.index ≤ a.trial.index) := by
  simp only [Outranks, Report.candidate, UInt32.lt_iff_toNat_lt, UInt32.le_iff_toNat_le]
  omega

namespace FirstOfBest

variable {reports : List Report} {winner : Report}

theorem mem (h : FirstOfBest reports winner) : winner ∈ reports := by
  obtain ⟨before, after, rfl, -⟩ := h.first
  simp

theorem not_outranks (h : FirstOfBest reports winner) {report : Report} (hr : report ∈ reports) :
    ¬ Outranks report.candidate winner.candidate :=
  not_outranks_iff.mpr ⟨h.severest report hr, h.least report hr⟩

/-- One that outranks the first of the best is the only best one. -/
theorem concat_of_outranks (h : FirstOfBest reports winner) {last : Report}
    (hlast : Outranks last.candidate winner.candidate) : FirstOfBest (reports ++ [last]) last := by
  -- whoever beats the best beats all of them
  have hout : ∀ report ∈ reports, Outranks last.candidate report.candidate := by
    intro report hr
    exact outranks_of_not_outranks hlast (h.not_outranks hr)
  have hbest : ∀ report ∈ reports ++ [last], ¬ Outranks report.candidate last.candidate := by
    intro report hr
    rcases List.mem_append.mp hr with hr | hr
    · exact not_outranks_of_outranks (not_outranks_self _) (hout report hr)
    · rw [List.mem_singleton.mp hr]
      exact not_outranks_self _
  refine ⟨?_, ?_, reports, [], rfl, ?_⟩
  · intro report hr
    exact (not_outranks_iff.mp (hbest report hr)).1
  · intro report hr
    exact (not_outranks_iff.mp (hbest report hr)).2
  · rintro report hr ⟨hseverity, hindex⟩
    have hbeaten := hout report hr
    simp only [Outranks, Report.candidate, UInt32.lt_iff_toNat_lt, hseverity, hindex] at hbeaten
    omega

/-- One that does not outrank the first of the best comes too late. -/
theorem concat_of_not_outranks (h : FirstOfBest reports winner) {last : Report}
    (hlast : ¬ Outranks last.candidate winner.candidate) :
    FirstOfBest (reports ++ [last]) winner := by
  obtain ⟨before, after, hsplit, hfirst⟩ := h.first
  -- at best it ties, and then it stands behind
  obtain ⟨hless, htie⟩ := not_outranks_iff.mp hlast
  refine ⟨?_, ?_, before, after ++ [last], by simp [hsplit], hfirst⟩
  · intro report hr
    rcases List.mem_append.mp hr with hr | hr
    · exact h.severest report hr
    · exact List.mem_singleton.mp hr ▸ hless
  · intro report hr
    rcases List.mem_append.mp hr with hr | hr
    · exact h.least report hr
    · exact List.mem_singleton.mp hr ▸ htie

/-- Of two such reports neither stands before the other. -/
theorem unique {winner' : Report} (h : FirstOfBest reports winner)
    (h' : FirstOfBest reports winner') : winner = winner' := by
  have hseverity : severity winner.ending = severity winner'.ending :=
    Nat.le_antisymm (h'.severest winner h.mem) (h.severest winner' h'.mem)
  have hindex : winner.trial.index = winner'.trial.index :=
    UInt32.le_antisymm (h.least winner' h'.mem hseverity.symm) (h'.least winner h.mem hseverity)
  obtain ⟨before, after, hsplit, hfirst⟩ := h.first
  obtain ⟨before', after', hsplit', hfirst'⟩ := h'.first
  rw [hsplit] at hsplit'
  -- one of them stands at or before the place of the other, and it cannot stand before it
  rcases List.append_eq_append_iff.mp hsplit' with
    ⟨between, hbefore', hrest⟩ | ⟨between, hbefore, hrest⟩
  · cases between with
    | nil => exact (List.cons.inj hrest).1
    | cons first between =>
      have heq : winner = first := (List.cons.inj hrest).1
      have hearlier : winner ∈ before' := by simp [hbefore', heq]
      exact absurd ⟨hseverity, hindex⟩ (hfirst' winner hearlier)
  · cases between with
    | nil => exact (List.cons.inj hrest).1.symm
    | cons first between =>
      have heq : winner' = first := (List.cons.inj hrest).1
      have hearlier : winner' ∈ before := by simp [hbefore, heq]
      exact absurd ⟨hseverity.symm, hindex.symm⟩ (hfirst winner' hearlier)

end FirstOfBest

/-- A report is preferred just if it outranks everything that was offered before it. -/
theorem prefers_ofList_iff (reports : List Report) (report : Report) :
    (ofList reports).prefers report = true ↔
      ∀ earlier ∈ reports, Outranks report.candidate earlier.candidate := by
  have hchoice := isChoice_ofList reports
  cases hb : (ofList reports).best with
  | none =>
    rw [hb] at hchoice
    have hreports : reports = [] := hchoice
    subst hreports
    simp [prefers, hb]
  | some best =>
    rw [hb] at hchoice
    obtain ⟨⟨winner, hmem, rfl⟩, hbest⟩ := hchoice
    rw [prefers_iff hb]
    constructor
    · intro hout earlier he
      exact outranks_of_not_outranks hout (hbest earlier he)
    · intro hall
      exact hall winner hmem

/-- The selector keeps the first of the best. -/
theorem exists_firstOfBest {reports : List Report} (hne : reports ≠ []) :
    ∃ winner, FirstOfBest reports winner ∧ (ofList reports).best = some winner.candidate := by
  induction reports using List.reverseRecOn with
  | nil => exact absurd rfl hne
  | append_singleton rest last ih =>
    rw [ofList_concat]
    unfold offer
    -- the first report is the best so far, whatever it is
    by_cases hrest : rest = []
    · subst hrest
      refine ⟨last, ⟨?_, ?_, [], [], rfl, ?_⟩, rfl⟩ <;> simp
    · obtain ⟨winner, hwinner, hb⟩ := ih hrest
      split
      · next hp => exact ⟨last, hwinner.concat_of_outranks ((prefers_iff hb last).mp hp), rfl⟩
      · next hp =>
        exact ⟨winner, hwinner.concat_of_not_outranks (mt (prefers_iff hb last).mpr hp), hb⟩

theorem selected_eq_some_iff {reports : List Report} {trial : Trial} :
    (ofList reports).selected = some trial ↔
      ∃ winner, FirstOfBest reports winner ∧ winner.trial = trial := by
  constructor
  · intro h
    have hne : reports ≠ [] := by
      rintro rfl
      cases h
    obtain ⟨winner, hwinner, hb⟩ := exists_firstOfBest hne
    rw [selected, hb] at h
    exact ⟨winner, hwinner, Option.some.inj h⟩
  · rintro ⟨winner, hwinner, rfl⟩
    obtain ⟨winner', hwinner', hb⟩ := exists_firstOfBest (List.ne_nil_of_mem hwinner.mem)
    rw [selected, hb, hwinner.unique hwinner']
    rfl

theorem selected_eq_none_iff {reports : List Report} :
    (ofList reports).selected = none ↔ reports = [] := by
  constructor
  · intro h
    by_contra hne
    obtain ⟨winner, -, hb⟩ := exists_firstOfBest hne
    rw [selected, hb] at h
    cases h
  · rintro rfl
    rfl

/-- **The selector keeps the first of the best reports.** It has chosen none as long as nothing was
offered; after that it is the first offered of the most severe reports with the least index, however
often indices are repeated. A report is preferred on its offer exactly if it outranks everything
that was offered before it. As long as no two reports have the same index, the order of the offers
does not show. -/
theorem selects_first_of_best (reports : List Report) :
    ((ofList reports).selected = none ↔ reports = []) ∧
    (∀ trial, (ofList reports).selected = some trial ↔
      ∃ winner, FirstOfBest reports winner ∧ winner.trial = trial) ∧
    (∀ earlier report later, reports = earlier ++ report :: later →
      ((ofList earlier).prefers report = true ↔
        ∀ other ∈ earlier, Outranks report.candidate other.candidate)) ∧
    ((reports.map fun report => report.trial.index).Nodup →
      ∀ reports', Perm reports reports' →
        (ofList reports').selected = (ofList reports).selected) := by
  refine ⟨selected_eq_none_iff, fun trial => selected_eq_some_iff, ?_, ?_⟩
  · intro earlier report _ _
    exact prefers_ofList_iff earlier report
  · intro hn reports' hp
    rw [ofList_perm hp hn]

-- the second and the third report tie, and the second was offered earlier
example :
    (ofList [⟨⟨3, 30⟩, .victory 1⟩, ⟨⟨4, 40⟩, .outOfTurns⟩, ⟨⟨4, 41⟩, .outOfTurns⟩,
      ⟨⟨0, 1⟩, .excluded⟩]).selected =
    some ⟨4, 40⟩ := by decide

end Selector
end Trials
end CombatTrials
