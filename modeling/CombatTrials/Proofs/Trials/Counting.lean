import Mathlib.Data.List.Induction
import Mathlib.Data.List.Perm.Basic
import CombatTrials.Proofs.Data.Exchange
import CombatTrials.Proofs.Data.Ledger
import CombatTrials.Trials.Histogram

/-!
# What a histogram says of the outcomes it counted

Outcomes are in a strict total order, so the buckets of a histogram are a ledger to which everything
about ledgers applies (`Ledger.Ascending`). Of the histogram of a list of outcomes that gives

* `ofList_perm`: it does not tell in which order they were counted, and
* `sumOf_buckets_ofList`, `bucket_pos_ofList`: its counts are at least one and add up to how many
  there were.

Counts are numbers of sixty-four bits. A count that passes the end starts again at zero, so the sums
need a bound on the number of outcomes; every job has fewer than that.
-/

namespace CombatTrials
namespace Trials

open Data (sumOf sumOf_map le_sumOf)
open Data.Ledger (Ascending)
open List (Perm)

/-! ## The order of outcomes

Each outcome has a place, which is a natural number, and the order is that of the places. As no two
outcomes share a place it is total. -/

/-- Outcomes that stand at one place are one outcome. -/
theorem Outcome.place_inj {a b : Outcome} (h : a.place = b.place) : a = b := by
  cases a <;> cases b <;> simp only [Outcome.place] at h
  case excluded.excluded | timeout.timeout | error.error => rfl
  case victory.victory t t' | wipe.wipe t t' =>
    have ht : t = t' := UInt32.toNat_inj.mp (by omega)
    rw [ht]
  -- outcomes of two kinds never stand at one place, as a turn number is one of thirty-two bits
  all_goals
    first
      | (next t t' => have ht := t.toNat_lt_size; have ht' := t'.toNat_lt_size; omega)
      | (next t => have ht := t.toNat_lt_size; simp only [UInt32.size] at *; omega)
      | (simp only [UInt32.size] at *; omega)

instance : IsStrictTotalOrder Outcome (· < ·) where
  irrefl _ := Nat.lt_irrefl _
  trans _ _ _ := Nat.lt_trans
  trichotomous _ _ hab hba :=
    Outcome.place_inj (Nat.le_antisymm (Nat.not_lt.mp hba) (Nat.not_lt.mp hab))

namespace Histogram

/-- A list is counted from the front, so its last outcome is counted last. -/
theorem ofList_concat (outcomes : List Outcome) (o : Outcome) :
    ofList (outcomes ++ [o]) = (ofList outcomes).record o := by
  simp [ofList]

/-! ## Order does not show

Counting is writing to a ledger, and writes to different keys commute. Of two equal outcomes there
is nothing to exchange. -/

theorem record_comm (h : Histogram) (a b : Outcome) :
    (h.record a).record b = (h.record b).record a := by
  by_cases hab : a = b
  · rw [hab]
  · unfold record
    rw [Data.Ledger.alter_comm hab]

theorem ofList_perm {outcomes outcomes' : List Outcome} (h : Perm outcomes outcomes') :
    ofList outcomes = ofList outcomes' :=
  h.foldl_eq' (fun a _ b _ hist => record_comm hist a b) _

/-! ## Buckets

Counts are added in sixty-four bits, and sums of them are taken in natural numbers. A sum grows by
one with every outcome, as long as no count starts again at zero. -/

theorem ascending_ofList (outcomes : List Outcome) : Ascending (ofList outcomes).buckets := by
  induction outcomes using List.reverseRecOn with
  | nil => exact Data.Ledger.ascending_nil
  | append_singleton rest o ih =>
    rw [ofList_concat]
    exact ih.alter _ _

/-- A count is at most what all counts add up to. -/
theorem count_le_sumOf {h : Histogram} {o : Outcome} {n : UInt64}
    (hf : h.buckets.find? o = some n) : n.toNat ≤ sumOf (fun bucket => bucket.2.toNat) h.buckets :=
  le_sumOf (fun bucket => bucket.2.toNat) (Data.Ledger.mem_of_find? hf)

/-- Counting one more outcome adds one to the sum, while the count does not pass the end. -/
theorem sumOf_buckets_record {h : Histogram} (hasc : Ascending h.buckets) (o : Outcome)
    (hroom : sumOf (fun bucket => bucket.2.toNat) h.buckets + 1 < UInt64.size) :
    sumOf (fun bucket => bucket.2.toNat) (h.record o).buckets =
      sumOf (fun bucket => bucket.2.toNat) h.buckets + 1 := by
  have hsum := Data.Ledger.sumOf_alter (fun bucket => bucket.2.toNat) o
    (fun count => count.getD 0 + 1) hasc
  cases hf : h.buckets.find? o with
  -- the outcome is new, and its count is one
  | none =>
    rw [hf] at hsum
    simpa [record] using hsum
  | some n =>
    have hle := count_le_sumOf hf
    -- no count is greater than the sum, for which there is room
    have hsucc : (n + 1).toNat = n.toNat + 1 := by
      rw [UInt64.toNat_add, UInt64.toNat_one]
      exact Nat.mod_eq_of_lt (by simp only [UInt64.size] at hroom; omega)
    rw [hf] at hsum
    simp only [Option.elim_some, Option.getD_some, hsucc] at hsum
    simp only [record]
    omega

/-- The counts add up to how many outcomes there were. -/
theorem sumOf_buckets_ofList {outcomes : List Outcome} (h : outcomes.length < UInt64.size) :
    sumOf (fun bucket => bucket.2.toNat) (ofList outcomes).buckets = outcomes.length := by
  induction outcomes using List.reverseRecOn with
  | nil => rfl
  | append_singleton rest o ih =>
    rw [List.length_append, List.length_singleton] at h ⊢
    have ih := ih (by omega)
    rw [ofList_concat, sumOf_buckets_record (ascending_ofList rest) o (by omega), ih]

/-- There is no bucket without an occurrence. -/
theorem bucket_pos_ofList {outcomes : List Outcome} (h : outcomes.length < UInt64.size) :
    ∀ bucket ∈ (ofList outcomes).buckets, 0 < bucket.2.toNat := by
  induction outcomes using List.reverseRecOn with
  | nil => simp [ofList]
  | append_singleton rest o ih =>
    rw [List.length_append, List.length_singleton] at h
    rw [ofList_concat]
    refine Data.Ledger.forall_mem_alter (ascending_ofList rest) (ih (by omega)) ?_
    have hlength : rest.length < UInt64.size := by omega
    have hsum := sumOf_buckets_ofList hlength
    cases hf : (ofList rest).buckets.find? o with
    | none => simp
    | some n =>
      -- a count is no more than all of them, so it is far from starting again at zero
      have hle := count_le_sumOf hf
      simp only [Option.getD_some, UInt64.toNat_add, UInt64.toNat_one]
      rw [Nat.mod_eq_of_lt (by simp only [UInt64.size] at h; omega)]
      omega

/-- A bucket is there for each outcome that occurred, and says how often it did. -/
theorem find?_buckets_ofList (outcomes : List Outcome) (o : Outcome) :
    (ofList outcomes).buckets.find? o = if o ∈ outcomes then some (.ofNat (outcomes.count o))
      else none := by
  induction outcomes using List.reverseRecOn with
  | nil => rfl
  | append_singleton rest last ih =>
    rw [ofList_concat, record]
    -- the last outcome adds one to its own bucket and is not seen in any other
    by_cases ho : o = last
    · subst ho
      have hcount : ((ofList rest).buckets.find? o).getD 0 = UInt64.ofNat (rest.count o) := by
        rw [ih]
        split
        · rfl
        · next hnot => rw [List.count_eq_zero_of_not_mem hnot]; rfl
      rw [Data.Ledger.find?_alter_self _ _ (ascending_ofList rest), hcount, if_pos (by simp),
        List.count_append, List.count_singleton_self, UInt64.ofNat_add]
      rfl
    · rw [Data.Ledger.find?_alter_ne ho, ih]
      simp [ho, List.count_append, Ne.symm ho]

/-! ## Entries

Entries are the buckets once more, in a form that can be printed. What was said of buckets is said
of entries here, and nothing else is used of them later. -/

/-- The entries are the outcomes that occurred, with how often they did. -/
theorem mem_entries_ofList {outcomes : List Outcome} {entry : Entry} :
    entry ∈ (ofList outcomes).entries ↔
      entry.outcome ∈ outcomes ∧ entry.count = .ofNat (outcomes.count entry.outcome) := by
  obtain ⟨o, n⟩ := entry
  have hmem : (⟨o, n⟩ : Entry) ∈ (ofList outcomes).entries ↔
      (o, n) ∈ (ofList outcomes).buckets := by
    simp [entries]
  rw [hmem, ← Data.Ledger.find?_eq_some_iff (ascending_ofList outcomes), find?_buckets_ofList]
  split
  · next ho => simp [ho, eq_comm]
  · next ho => simp [ho]

theorem exists_entry_of_mem {outcomes : List Outcome} {o : Outcome} (h : o ∈ outcomes) :
    ∃ entry ∈ (ofList outcomes).entries, entry.outcome = o :=
  ⟨⟨o, .ofNat (outcomes.count o)⟩, mem_entries_ofList.mpr ⟨h, rfl⟩, rfl⟩

/-- What a list of entries answers is what the histogram answers. -/
theorem countIn_entries (h : Histogram) (o : Outcome) : Entry.countIn h.entries o = h.count o := by
  obtain ⟨buckets⟩ := h
  unfold Entry.countIn count entries
  induction buckets with
  | nil => rfl
  | cons bucket rest ih =>
    obtain ⟨key, n⟩ := bucket
    by_cases hk : o = key
    · simp [Data.Ledger.find?, hk]
    · have hne : (key == o) = false := beq_false_of_ne (Ne.symm hk)
      simpa [Data.Ledger.find?, hk, hne, List.find?_cons] using ih

/-- A histogram answers with the number of occurrences, to sixty-four bits. -/
theorem count_ofList (outcomes : List Outcome) (o : Outcome) :
    (ofList outcomes).count o = .ofNat (outcomes.count o) := by
  unfold count
  rw [find?_buckets_ofList]
  split
  · rfl
  · next ho =>
    rw [List.count_eq_zero_of_not_mem ho]
    rfl

theorem ascending_entries_ofList (outcomes : List Outcome) :
    (ofList outcomes).entries.Pairwise fun a b => a.outcome < b.outcome :=
  List.pairwise_map.mpr (ascending_ofList outcomes)

theorem sumOf_entries_ofList {outcomes : List Outcome} (h : outcomes.length < UInt64.size) :
    sumOf (fun entry => entry.count.toNat) (ofList outcomes).entries = outcomes.length := by
  rw [← sumOf_buckets_ofList h]
  exact sumOf_map _ _ _

theorem entry_pos_ofList {outcomes : List Outcome} (h : outcomes.length < UInt64.size) :
    ∀ entry ∈ (ofList outcomes).entries, 0 < entry.count.toNat := by
  intro entry he
  obtain ⟨bucket, hb, rfl⟩ := List.mem_map.mp he
  exact bucket_pos_ofList h bucket hb

end Histogram
end Trials
end CombatTrials
