import CombatTrials.Proofs.Data.Counter
import CombatTrials.Trials.Schedule

/-!
# What a schedule lists

`Schedule.toList` is written with an accumulator, so that long schedules can be run.
`toList_of_next?` and `toList_of_none` are the recursion it stands for: a schedule lists its next
trial and then what the schedule after it lists.

The indices count up from the position one by one (`map_index_toList`). Two things follow that
everything about whole jobs rests on: a schedule lists as many trials as it says, and no two of them
share an index.
-/

namespace CombatTrials
namespace Trials
namespace Schedule

/-! ## The recursion of `toList`

The accumulator is dealt with once and for all. What is proved of schedules afterwards is by
induction on what remains. -/

theorem takeAfter_eq (n : Nat) (drawn : List Trial) (s : Schedule) :
    takeAfter n drawn s = (drawn.reverse ++ (take n s).1, (take n s).2) := by
  induction n generalizing drawn s with
  | zero => simp [take, takeAfter]
  | succ n ih =>
    unfold take
    simp only [takeAfter]
    split
    · simp
    · next trial s' _ =>
      rw [ih (trial :: drawn), ih [trial]]
      simp

theorem take_succ_of_next? {s s' : Schedule} {trial : Trial}
    (h : s.next? = some (trial, s')) (n : Nat) : (s.take (n + 1)).1 = trial :: (s'.take n).1 := by
  unfold take
  simp only [takeAfter, h]
  rw [takeAfter_eq]
  simp [take]

/-- A step of a schedule: the trial has the index of the position, and one trial less remains. -/
theorem next?_eq_some {s s' : Schedule} {trial : Trial} (h : s.next? = some (trial, s')) :
    trial.index = s.position ∧ s'.position.toNat = s.position.toNat + 1 ∧
      s.remaining = s'.remaining + 1 := by
  unfold next? at h
  split at h
  · next hlt =>
    simp only [Option.some.injEq, Prod.mk.injEq] at h
    obtain ⟨rfl, rfl⟩ := h
    have hlt' := UInt32.lt_iff_toNat_lt.mp hlt
    have hnext := Data.toNat_succ_of_lt hlt'
    refine ⟨rfl, hnext, ?_⟩
    simp only [remaining, hnext]
    omega
  · exact absurd h (by simp)

/-- A schedule that has no next trial has none remaining, for its position never passes its count.
-/
theorem next?_eq_none {s : Schedule} (h : s.next? = none) : s.remaining = 0 := by
  unfold next? at h
  split at h
  · exact absurd h (by simp)
  · next hle =>
    have hle' : ¬ s.position.toNat < s.count.toNat := fun h' => hle (UInt32.lt_iff_toNat_lt.mpr h')
    unfold remaining
    omega

theorem toList_of_next? {s s' : Schedule} {trial : Trial} (h : s.next? = some (trial, s')) :
    s.toList = trial :: s'.toList := by
  unfold toList
  rw [(next?_eq_some h).2.2, take_succ_of_next? h]

theorem toList_of_none {s : Schedule} (h : s.next? = none) : s.toList = [] := by
  unfold toList
  rw [next?_eq_none h]
  rfl

/-! ## Indices

Positions are numbers of thirty-two bits, which a schedule does not leave: it stops at its count. -/

/-- The indices count up from the position, one for each trial that remains. -/
theorem map_index_toList (s : Schedule) :
    s.toList.map (fun trial => trial.index.toNat) = List.range' s.position.toNat s.remaining := by
  generalize hn : s.remaining = n
  induction n generalizing s with
  | zero =>
    -- whether there is a next trial is a matter of how many remain
    cases h : s.next? with
    | none => simp [toList_of_none h]
    | some found => exact absurd (next?_eq_some h).2.2 (by omega)
  | succ n ih =>
    cases h : s.next? with
    | none => exact absurd (next?_eq_none h) (by omega)
    | some found =>
      obtain ⟨trial, s'⟩ := found
      obtain ⟨hindex, hposition, hremaining⟩ := next?_eq_some h
      rw [toList_of_next? h, List.map_cons, ih s' (by omega), hindex, hposition, List.range'_succ]

theorem length_toList (s : Schedule) : s.toList.length = s.remaining := by
  have h := congrArg List.length (map_index_toList s)
  simpa using h

/-- No two trials of a schedule share an index, since its indices count up. -/
theorem nodup_index_toList (s : Schedule) : (s.toList.map fun trial => trial.index).Nodup := by
  have h : ((s.toList.map fun trial => trial.index).map UInt32.toNat).Nodup := by
    rw [List.map_map]
    exact (map_index_toList s).symm ▸ List.nodup_range'
  exact List.Pairwise.of_map (S := (· ≠ ·)) _ (fun a b hne heq => hne (congrArg _ heq)) h

theorem index_lt_of_mem_ofSeed {master : UInt64} {count : UInt32} {trial : Trial}
    (h : trial ∈ (ofSeed master count).toList) : trial.index.toNat < count.toNat := by
  have hmem : trial.index.toNat ∈ (ofSeed master count).toList.map fun trial => trial.index.toNat :=
    List.mem_map_of_mem h
  rw [map_index_toList, List.mem_range'_1] at hmem
  simpa [ofSeed, remaining] using hmem.2

theorem index_of_getElem?_ofSeed {master : UInt64} {count : UInt32} {i : Nat} {trial : Trial}
    (h : (ofSeed master count).toList[i]? = some trial) : trial.index.toNat = i := by
  have hindex := congrArg (·[i]?) (map_index_toList (ofSeed master count))
  simp only [List.getElem?_map, h, Option.map_some] at hindex
  obtain ⟨_, hi⟩ := List.getElem?_eq_some_iff.mp hindex.symm
  simpa [ofSeed] using hi.symm

theorem length_toList_ofSeed (master : UInt64) (count : UInt32) :
    (ofSeed master count).toList.length = count.toNat := by
  rw [length_toList]
  simp [ofSeed, remaining]

end Schedule
end Trials
end CombatTrials
