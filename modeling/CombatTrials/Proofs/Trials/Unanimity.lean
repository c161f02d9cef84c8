import Mathlib.Data.List.Destutter
import Mathlib.Data.List.Pairwise
import Mathlib.Data.List.Sort
import CombatTrials.Trials.Consistency

/-!
# The check of runs decides whether they agree

The check looks at neighbours only, and the message of its failure is made from the digests in
ascending order, each once. Neither of the two says at once that all runs agree. Neighbours do
because equality is transitive, wherever in the list two runs differ (`isConsistent_iff`); the
ascending list does because it has the digests of the runs and no others, and no two of its items
are the same (`length_distinct_le_one_iff`).
-/

namespace CombatTrials
namespace Trials
namespace Consistency

/-! ## Neighbours

The check goes through the list once and compares each digest with the one before. -/

/-- Looking at neighbours says that the list is a chain of equals. -/
theorem neighboursEqual_iff_isChain (l : List UInt64) :
    neighboursEqual l = true ↔ l.IsChain (· = ·) := by
  induction l with
  | nil => simp [neighboursEqual]
  | cons a rest ih =>
    cases rest with
    | nil => simp [neighboursEqual]
    | cons b rest => rw [neighboursEqual, Bool.and_eq_true, beq_iff_eq, ih, List.isChain_cons_cons]

variable {c : Consistency}

/-- The runs are found consistent if any two of their digests are equal. -/
theorem isConsistent_iff : c.isConsistent = true ↔ ∀ a ∈ c.digests, ∀ b ∈ c.digests, a = b := by
  rw [isConsistent, neighboursEqual_iff_isChain, List.isChain_iff_pairwise]
  constructor
  · intro h a ha b hb
    exact h.forall_of_forall (fun _ _ => rfl) ha hb
  · intro h
    exact List.pairwise_of_forall_mem_list h

/-! ## Digests in ascending order

The message of a failed check lists the digests. Inserting them one by one gives an ascending list,
and so one without repetitions. -/

section Insert

variable {a b : UInt64} {l : List UInt64}

/-- Inserting adds the digest and no other. -/
theorem mem_insert : b ∈ insert a l ↔ b = a ∨ b ∈ l := by
  induction l with
  | nil => simp [insert]
  | cons first rest ih =>
    rw [insert]
    by_cases hlt : a < first
    · simp [hlt]
    · by_cases heq : a = first
      · simp [heq]
      · simp [hlt, heq, ih, or_left_comm]

theorem pairwise_insert (h : l.Pairwise (· < ·)) : (insert a l).Pairwise (· < ·) := by
  induction l with
  | nil => exact List.pairwise_singleton _ a
  | cons first rest ih =>
    obtain ⟨hfirst, hrest⟩ := List.pairwise_cons.mp h
    rw [insert]
    by_cases hlt : a < first
    · rw [if_pos hlt]
      refine List.pairwise_cons.mpr ⟨?_, h⟩
      intro b hb
      rcases List.mem_cons.mp hb with rfl | hb
      · exact hlt
      · exact UInt64.lt_trans hlt (hfirst b hb)
    · rw [if_neg hlt]
      -- a digest that is there already is not inserted again
      by_cases heq : a = first
      · rwa [if_pos heq]
      · rw [if_neg heq]
        refine List.pairwise_cons.mpr ⟨?_, ih hrest⟩
        intro b hb
        rcases mem_insert.mp hb with rfl | hb
        · exact UInt64.lt_of_le_of_ne (UInt64.not_lt.mp hlt) (Ne.symm heq)
        · exact hfirst b hb

end Insert

/-- The ascending list has the digests of the runs and no others. -/
theorem mem_distinct {a : UInt64} : a ∈ c.distinct ↔ a ∈ c.digests := by
  unfold distinct
  induction c.digests with
  | nil => rfl
  | cons first rest ih => rw [List.foldr_cons, mem_insert, ih, List.mem_cons]

/-- The ascending list is ascending, so it repeats nothing. -/
theorem pairwise_distinct (c : Consistency) : c.distinct.Pairwise (· < ·) := by
  unfold distinct
  induction c.digests with
  | nil => exact List.Pairwise.nil
  | cons first rest ih => exact pairwise_insert ih

theorem distinct_eq_nil_iff : c.distinct = [] ↔ c.digests = [] := by
  simp only [List.eq_nil_iff_forall_not_mem, mem_distinct]

/-- An ascending list of the same digests is the only one, so sorting them and leaving out
repetitions gives it too. -/
theorem distinct_eq_destutter (c : Consistency) :
    c.distinct = (c.digests.mergeSort fun a b => a ≤ b).destutter (· ≠ ·) := by
  have hsorted : (c.digests.mergeSort fun a b => a ≤ b).Pairwise (· ≤ ·) := by
    have : IsTrans UInt64 (· ≤ ·) := ⟨fun _ _ _ => UInt64.le_trans⟩
    exact List.pairwise_mergeSort' (· ≤ ·) c.digests
  rw [hsorted.destutter_eq_dedup]
  have hascending : (c.digests.mergeSort fun a b => a ≤ b).dedup.Pairwise (· < ·) :=
    List.Pairwise.imp₂ (fun a b => UInt64.lt_of_le_of_ne) (hsorted.sublist (List.dedup_sublist _))
      (List.nodup_dedup _)
  exact (pairwise_distinct c).eq_of_mem_iff hascending fun a => by
    rw [mem_distinct, List.mem_dedup, List.mem_mergeSort]

/-- Two items of the ascending list are two digests that differ. -/
theorem length_distinct_le_one_iff :
    c.distinct.length ≤ 1 ↔ ∀ a ∈ c.digests, ∀ b ∈ c.digests, a = b := by
  simp only [← mem_distinct]
  have hascending := pairwise_distinct c
  cases hdistinct : c.distinct with
  | nil => simp
  | cons first rest =>
    cases rest with
    | nil => simp
    | cons second rest =>
      rw [hdistinct] at hascending
      -- two items in ascending order are different
      have hlt : first < second := (List.pairwise_cons.mp hascending).1 second List.mem_cons_self
      constructor
      · intro h
        simp at h
      · intro h
        exact absurd (h first (by simp) second (by simp)) (UInt64.ne_of_lt hlt)

theorem isSome_complaint?_iff : c.complaint?.isSome = true ↔ ¬ c.isConsistent = true := by
  unfold complaint?
  by_cases h : c.isConsistent = true
  · simp [h]
  · simp [h]

variable {α β : Type}

theorem forall_mem_digests {digest : β → UInt64} {run : α → β} {variants : List α} :
    (∀ a ∈ (check digest run variants).digests, ∀ b ∈ (check digest run variants).digests, a = b) ↔
      ∀ v ∈ variants, ∀ w ∈ variants, digest (run v) = digest (run w) := by
  simp only [check, List.forall_mem_map]

/-- **The check decides whether all runs agree.** It finds the runs consistent just when the digests
of any two of them are equal, wherever they stand in the list, and just when there is at most one
digest in the ascending list; of one variant at least there is exactly one. The ascending list is
strictly ascending and has the digests of the runs and no others; it is what is left of the sorted
digests without repetitions. An assertion fails just when two runs have different digests. What a
run depends on besides its variant, such as how many ran before it, counts as a part of the variant
here. -/
theorem check_decides_agreement (digest : β → UInt64) (run : α → β) (variants : List α) :
    let c := check digest run variants
    (c.isConsistent = true ↔ ∀ v ∈ variants, ∀ w ∈ variants, digest (run v) = digest (run w)) ∧
    (c.isConsistent = true ↔ c.distinct.length ≤ 1) ∧
    (variants ≠ [] → (c.isConsistent = true ↔ c.distinct.length = 1)) ∧
    c.distinct.Pairwise (· < ·) ∧
    (∀ a, a ∈ c.distinct ↔ ∃ v ∈ variants, digest (run v) = a) ∧
    c.distinct = (c.digests.mergeSort fun a b => a ≤ b).destutter (· ≠ ·) ∧
    (c.complaint?.isSome = true ↔
      ∃ v ∈ variants, ∃ w ∈ variants, digest (run v) ≠ digest (run w)) := by
  intro c
  have hagree : c.isConsistent = true ↔
      ∀ v ∈ variants, ∀ w ∈ variants, digest (run v) = digest (run w) :=
    isConsistent_iff.trans forall_mem_digests
  have hone : c.isConsistent = true ↔ c.distinct.length ≤ 1 :=
    isConsistent_iff.trans length_distinct_le_one_iff.symm
  refine ⟨hagree, hone, ?_, pairwise_distinct c, ?_, distinct_eq_destutter c, ?_⟩
  · intro hsome
    have hpos : c.distinct.length ≠ 0 := by
      rw [Ne, List.length_eq_zero_iff, distinct_eq_nil_iff]
      simpa [c, check] using hsome
    rw [hone]
    omega
  · intro a
    rw [mem_distinct]
    exact List.mem_map
  · rw [isSome_complaint?_iff, hagree]
    simp only [not_forall, exists_prop, ne_eq]

/-- Three variants, no two of them the same, whose runs agree. -/
theorem check_decides_agreement_of_three :
    let variants : List Nat := [3, 8, 13]
    let c := check UInt64.ofNat (fun v => v % 5) variants
    variants ≠ [] ∧ variants.Nodup ∧ c.isConsistent = true ∧ c.distinct.length = 1 ∧
      c.complaint?.isSome = false := by
  intro variants c
  have hsome : variants ≠ [] := List.cons_ne_nil _ _
  have hrun : ∀ v ∈ variants, v % 5 = 3 := by decide
  have hagree : ∀ v ∈ variants, ∀ w ∈ variants, UInt64.ofNat (v % 5) = UInt64.ofNat (w % 5) := by
    intro v hv w hw
    rw [hrun v hv, hrun w hw]
  obtain ⟨hconsistent, -, hone, -, -, -, hcomplaint⟩ :=
    check_decides_agreement UInt64.ofNat (fun v => v % 5) variants
  have hfound : c.isConsistent = true := hconsistent.mpr hagree
  refine ⟨hsome, by decide, hfound, (hone hsome).mp hfound, Bool.eq_false_iff.mpr ?_⟩
  intro hsays
  obtain ⟨v, hv, w, hw, hne⟩ := hcomplaint.mp hsays
  exact hne (hagree v hv w hw)

/-- The run in the middle differs from both of its neighbours, which agree. -/
example :
    (⟨[3, 4, 3]⟩ : Consistency).distinct = [3, 4] ∧
      (⟨[3, 4, 3]⟩ : Consistency).isConsistent = false := by
  decide

end Consistency
end Trials
end CombatTrials
