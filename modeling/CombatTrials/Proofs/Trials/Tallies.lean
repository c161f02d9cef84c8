import CombatTrials.Proofs.Trials.Counting
import CombatTrials.Trials.Snapshot

/-!
# Histograms characterise what they counted

A histogram tells of a list of outcomes how often each of them occurred and how many there were, and
it tells nothing else: two lists have the same entries just when one is a rearrangement of the
other. The entries stand in the order of outcomes, which is that of the kinds and, of one kind, that
of the turns (`Outcome.lt_iff`).

All of this is said twice, because counts are numbers of sixty-four bits. As such numbers the counts
and the total are right for every list (`count_ofList`, `total_ofList`). As natural numbers they are
right for every list that is shorter than the first number with more bits (`tells_ofList`), and so
are all lists that were ever counted.
-/

namespace CombatTrials
namespace Trials

open List (Perm)

/-! ## The order of outcomes, by kind and turn

The order is defined by places. What it means to a reader is said here, and the order of entries is
stated in these terms. -/

/-- The place of the kind of an outcome among the kinds. -/
def Outcome.rank : Outcome → Nat
  | .excluded => 0
  | .victory _ => 1
  | .timeout => 2
  | .wipe _ => 3
  | .error => 4

/-- The place of an outcome is that of its kind, in steps that no turn reaches across, and its
turn. -/
theorem Outcome.place_eq (o : Outcome) :
    o.place = o.rank * UInt32.size + (o.turn?.getD 0).toNat := by
  cases o <;> simp [place, rank, turn?]

/-- The kind decides, and of one kind the turn. -/
theorem Outcome.lt_iff {a b : Outcome} :
    a < b ↔ a.rank < b.rank ∨ a.rank = b.rank ∧ a.turn?.getD 0 < b.turn?.getD 0 := by
  have ha := (a.turn?.getD 0).toNat_lt_size
  have hb := (b.turn?.getD 0).toNat_lt_size
  show a.place < b.place ↔ _
  rw [place_eq a, place_eq b, UInt32.lt_iff_toNat_lt]
  simp only [UInt32.size] at *
  omega

namespace Histogram

/-! ## Totals

Totals are folded up in sixty-four bits, where addition wraps around and is associative all the
same. So they are right for every list. -/

/-- Counting one more outcome adds one to the total, wherever its bucket stands. -/
theorem total_record (h : Histogram) (o : Outcome) : (h.record o).total = h.total + 1 := by
  obtain ⟨buckets⟩ := h
  unfold total record
  induction buckets with
  | nil => rfl
  | cons bucket rest ih =>
    obtain ⟨key, n⟩ := bucket
    simp only [Data.Ledger.alter]
    split
    · -- the outcome has a bucket, and it is the one in front
      simp only [List.foldr_cons, Option.getD_some]
      ac_rfl
    · split
      · -- it has none, and gets one in front of the greater outcomes
        simp only [List.foldr_cons, Option.getD_none, UInt64.zero_add]
        ac_rfl
      · simp only [List.foldr_cons] at ih ⊢
        rw [ih]
        ac_rfl

/-- The total of a list is its length, to sixty-four bits. -/
theorem total_ofList (outcomes : List Outcome) :
    (ofList outcomes).total = .ofNat outcomes.length := by
  induction outcomes using List.reverseRecOn with
  | nil => rfl
  | append_singleton rest o ih =>
    rw [ofList_concat, total_record, ih, List.length_append, List.length_singleton,
      UInt64.ofNat_add]
    rfl

theorem total_entries (h : Histogram) : Entry.total h.entries = h.total := by
  unfold Entry.total entries total
  rw [List.foldr_map]

/-! ## What a histogram tells

In natural numbers counts are right up to a bound. With all counts right, the entries determine the
list up to its order. -/

/-- A histogram that tells of a list of outcomes how often each occurs in it, in numbers without an
end. -/
structure Tells (h : Histogram) (outcomes : List Outcome) : Prop where
  count : ∀ o, (h.count o).toNat = outcomes.count o
  total : h.total.toNat = outcomes.length
  mem_entries : ∀ entry, entry ∈ h.entries ↔
    entry.outcome ∈ outcomes ∧ entry.count.toNat = outcomes.count entry.outcome
  ascending : h.entries.Pairwise fun a b => a.outcome < b.outcome

variable {outcomes outcomes' : List Outcome}

theorem toNat_ofNat_count (h : outcomes.length < UInt64.size) (o : Outcome) :
    (UInt64.ofNat (outcomes.count o)).toNat = outcomes.count o :=
  UInt64.toNat_ofNat_of_lt' (Nat.lt_of_le_of_lt List.count_le_length h)

/-- A list that sixty-four bits can count is told exactly. -/
theorem tells_ofList (h : outcomes.length < UInt64.size) : (ofList outcomes).Tells outcomes where
  count o := by rw [count_ofList, toNat_ofNat_count h]
  total := by
    rw [total_ofList]
    exact UInt64.toNat_ofNat_of_lt' h
  mem_entries entry := by
    rw [mem_entries_ofList, ← UInt64.toNat_inj, toNat_ofNat_count h]
  ascending := ascending_entries_ofList outcomes

/-- The entries leave nothing open but the order in which outcomes were counted. -/
theorem Tells.perm {h h' : Histogram} (ht : h.Tells outcomes) (ht' : h'.Tells outcomes')
    (heq : h.entries = h'.entries) : Perm outcomes outcomes' := by
  refine List.perm_iff_count.mpr fun o => ?_
  rw [← ht.count, ← ht'.count, ← countIn_entries, heq, countIn_entries]

/-- **Histograms are exact and canonical.** Of every list of outcomes the histogram has the number
of occurrences of each outcome as its count and the length of the list as its total, to sixty-four
bits; its entries are the outcomes that occurred, each once and with its count, in strictly
ascending order, which is the order of the kinds and, of one kind, of the turns. Rearranging the
list changes nothing. A snapshot of progress answers as the histogram does. Of lists that sixty-four
bits can count nothing is cut off, and then the entries are the same only if one list is a
rearrangement of the other. -/
theorem exact_and_canonical (outcomes : List Outcome) :
    (∀ o, (ofList outcomes).count o = .ofNat (outcomes.count o)) ∧
    (ofList outcomes).total = .ofNat outcomes.length ∧
    (∀ entry, entry ∈ (ofList outcomes).entries ↔
      entry.outcome ∈ outcomes ∧ entry.count = .ofNat (outcomes.count entry.outcome)) ∧
    (ofList outcomes).entries.Pairwise (fun a b => a.outcome < b.outcome) ∧
    (∀ a b : Outcome, a < b ↔ a.rank < b.rank ∨ a.rank = b.rank ∧ a.turn?.getD 0 < b.turn?.getD 0) ∧
    (∀ outcomes', Perm outcomes outcomes' →
      (ofList outcomes).entries = (ofList outcomes').entries) ∧
    (∀ maxIterations completed,
      let snapshot := Snapshot.progress maxIterations completed (ofList outcomes)
      (∀ o, snapshot.count o = (ofList outcomes).count o) ∧
        snapshot.total = (ofList outcomes).total) ∧
    (outcomes.length < UInt64.size →
      (ofList outcomes).Tells outcomes ∧
      ∀ outcomes', outcomes'.length < UInt64.size →
        ((ofList outcomes).entries = (ofList outcomes').entries ↔ Perm outcomes outcomes')) := by
  have hperm : ∀ outcomes', Perm outcomes outcomes' →
      (ofList outcomes).entries = (ofList outcomes').entries := by
    intro outcomes' h
    rw [ofList_perm h]
  refine ⟨count_ofList outcomes, total_ofList outcomes, fun entry => mem_entries_ofList,
    ascending_entries_ofList outcomes, fun a b => Outcome.lt_iff, hperm, ?_, ?_⟩
  · intro maxIterations completed
    exact ⟨countIn_entries _, total_entries _⟩
  · intro hroom
    refine ⟨tells_ofList hroom, fun outcomes' hroom' => ⟨?_, hperm outcomes'⟩⟩
    exact (tells_ofList hroom).perm (tells_ofList hroom')

/-- Two wins of turn three counted apart from each other, between one of turn nine and a failure. -/
theorem exact_and_canonical_of_four :
    let outcomes : List Outcome := [.victory 3, .error, .victory 9, .victory 3]
    (ofList outcomes).Tells outcomes ∧
    (ofList outcomes).entries = [⟨.victory 3, 2⟩, ⟨.victory 9, 1⟩, ⟨.error, 1⟩] ∧
    (ofList outcomes).entries = (ofList [.victory 9, .victory 3, .victory 3, .error]).entries ∧
    (ofList outcomes).entries ≠ (ofList [.victory 3, .error, .victory 9]).entries := by
  intro outcomes
  obtain ⟨-, -, -, -, -, -, -, hexact⟩ := exact_and_canonical outcomes
  obtain ⟨htells, hcanonical⟩ := hexact (by decide)
  refine ⟨htells, by decide, (hcanonical _ (by decide)).mpr (by decide), ?_⟩
  intro heq
  exact absurd ((hcanonical _ (by decide)).mp heq) (by decide)

end Histogram
end Trials
end CombatTrials
