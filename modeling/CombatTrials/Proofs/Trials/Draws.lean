import Mathlib.Data.List.Basic
import CombatTrials.Proofs.Trials.Schedule

/-!
# Which draw the seed of a trial is

A schedule keeps three things in step: the stream it draws from, the position it has come to and the
number of trials there are. The trial of index `i` has the draw that `i` draws went before
(`toList_eq`), however many trials follow, so a shorter schedule is the beginning of a longer one.

A schedule can be asked for its next trial as often as one likes. `Schedule.after` is the schedule
after some number of calls, answered or not; it has what is left of the list (`toList_after`) and a
stream that has been drawn from once for each answer (`stream_after`), so that calls after the end
draw nothing.
-/

namespace CombatTrials
namespace Chance
namespace Stream

/-- The stream after some number of draws. -/
def after (s : Stream) : Nat → Stream
  | 0 => s
  | n + 1 => (s.after n).next.2

/-- The draw that some number of draws go before. -/
def draw (s : Stream) (n : Nat) : UInt64 := (s.after n).next.1

/-- Drawing first and then some number of times is drawing once more than that. -/
theorem after_next (s : Stream) (n : Nat) : s.next.2.after n = s.after (n + 1) := by
  induction n with
  | zero => rfl
  | succ n ih =>
    rw [after, ih]
    rfl

theorem draw_next (s : Stream) (n : Nat) : s.next.2.draw n = s.draw (n + 1) := by
  rw [draw, after_next, draw]

end Stream
end Chance

namespace Trials

open Chance (Stream)

namespace Schedule

variable {s s' : Schedule} {trial : Trial}

/-! ## The trials of a schedule

The list of trials in closed form: a trial for every position that is left, each with the draw of
that number. -/

theorem seed_of_next? (h : s.next? = some (trial, s')) :
    trial.seed = s.stream.draw 0 ∧ s'.stream = s.stream.after 1 := by
  unfold next? at h
  split at h
  · simp only [Option.some.injEq, Prod.mk.injEq] at h
    obtain ⟨rfl, rfl⟩ := h
    exact ⟨rfl, rfl⟩
  · exact absurd h (by simp)

/-- The trials to come: indices from the position on, and the draws to come. -/
theorem toList_eq (s : Schedule) :
    s.toList = (List.range s.remaining).map fun i =>
      ⟨.ofNat (s.position.toNat + i), s.stream.draw i⟩ := by
  generalize hn : s.remaining = n
  induction n generalizing s with
  | zero =>
    cases h : s.next? with
    | none => simp [toList_of_none h]
    | some found => exact absurd (next?_eq_some h).2.2 (by omega)
  | succ n ih =>
    cases h : s.next? with
    | none => exact absurd (next?_eq_none h) (by omega)
    | some found =>
      obtain ⟨trial, s'⟩ := found
      obtain ⟨hindex, hposition, hremaining⟩ := next?_eq_some h
      obtain ⟨hseed, hstream⟩ := seed_of_next? h
      have hfirst : trial = ⟨.ofNat (s.position.toNat + 0), s.stream.draw 0⟩ := by
        rw [← hseed, Nat.add_zero, UInt32.ofNat_toNat, ← hindex]
      rw [toList_of_next? h, ih s' (by omega), List.range_succ_eq_map, List.map_cons,
        List.map_map, ← hfirst]
      -- what is left stands one position further on, and its stream one draw
      refine congrArg _ (List.map_congr_left fun i _ => ?_)
      have hdraw : s'.stream.draw i = s.stream.draw (i + 1) := hstream ▸ s.stream.draw_next i
      simp only [Function.comp_apply, hposition, hdraw]
      rw [show s.position.toNat + 1 + i = s.position.toNat + i.succ by omega]

/-- The schedule of a job: indices from zero on, each with the draw of that number. -/
theorem toList_ofSeed_eq (master : UInt64) (count : UInt32) :
    (ofSeed master count).toList =
      (List.range count.toNat).map fun i => ⟨.ofNat i, (Stream.ofSeed master).draw i⟩ := by
  rw [toList_eq]
  simp [ofSeed, remaining]

/-- A shorter schedule is the beginning of a longer one. -/
theorem toList_ofSeed_of_le (master : UInt64) {m n : UInt32} (h : m ≤ n) :
    (ofSeed master m).toList = (ofSeed master n).toList.take m.toNat := by
  rw [toList_ofSeed_eq, toList_ofSeed_eq, ← List.map_take, List.take_range,
    Nat.min_eq_left (UInt32.le_iff_toNat_le.mp h)]

/-! ## Calls for trials

A schedule may be asked after its end, and answers with nothing. A call that is not answered leaves
the schedule as it is, its stream included. -/

/-- The schedule after a call for its next trial. -/
def advance (s : Schedule) : Schedule :=
  match s.next? with
  | some (_, s') => s'
  | none => s

/-- The schedule after some number of calls. -/
def after (s : Schedule) : Nat → Schedule
  | 0 => s
  | k + 1 => (s.after k).advance

theorem advance_of_next? (h : s.next? = some (trial, s')) : s.advance = s' := by
  unfold advance
  rw [h]

theorem advance_of_none (h : s.next? = none) : s.advance = s := by
  unfold advance
  rw [h]

theorem toList_advance (s : Schedule) : s.advance.toList = s.toList.tail := by
  cases h : s.next? with
  | none => rw [advance_of_none h, toList_of_none h, List.tail_nil]
  | some found => rw [advance_of_next? h, toList_of_next? h, List.tail_cons]

theorem toList_after (s : Schedule) (k : Nat) : (s.after k).toList = s.toList.drop k := by
  induction k with
  | zero => rfl
  | succ k ih => rw [after, toList_advance, ih, List.tail_drop]

/-- How many trials are left after some calls. Calls after the end take nothing off. -/
theorem remaining_after (s : Schedule) (k : Nat) : (s.after k).remaining = s.remaining - k := by
  rw [← length_toList, toList_after, List.length_drop, length_toList]

theorem next?_eq_none_iff : s.next? = none ↔ s.remaining = 0 := by
  refine ⟨next?_eq_none, fun h => ?_⟩
  cases hnext : s.next? with
  | none => rfl
  | some found => exact absurd (next?_eq_some hnext).2.2 (by omega)

/-- Each call that is answered draws once, and no other does. -/
theorem stream_after (s : Schedule) (k : Nat) :
    (s.after k).stream = s.stream.after (min k s.remaining) := by
  induction k with
  | zero => rw [Nat.zero_min]; rfl
  | succ k ih =>
    have hleft := remaining_after s k
    rw [after]
    cases h : (s.after k).next? with
    | none =>
      -- both numbers of calls are past the end, where the stream stays
      have hend := next?_eq_none h
      rw [advance_of_none h, ih, Nat.min_eq_right (by omega), Nat.min_eq_right (by omega)]
    | some found =>
      have hmore := (next?_eq_some h).2.2
      rw [Nat.min_eq_left (by omega)] at ih ⊢
      rw [advance_of_next? h, (seed_of_next? h).2, ih]
      rfl

/-- What is said to remain is the difference of the two counters, which never falls below zero. -/
theorem toNat_count_sub_position (s : Schedule) : (s.count - s.position).toNat = s.remaining :=
  UInt32.toNat_sub_of_le _ _ s.position_le

/-- **Index and draw stay in step.** The schedule of `n` trials lists `n` trials, the one at place
`i` with the index `i` and the draw of the master seed's stream that `i` draws go before; that of
fewer trials is its beginning, and the seed of a job with a single iteration is that of its first
trial. After any number of calls what is said to remain is the number of trials still to come, a
difference of counters of which the second is not the greater; and from the end on calls are
answered with nothing, draw nothing and leave the schedule as it is. -/
theorem index_and_draw_in_step (master : UInt64) {m n : UInt32} (h : m ≤ n) :
    (ofSeed master n).toList.length = n.toNat ∧
    (∀ i < n.toNat, ∃ trial, (ofSeed master n).toList[i]? = some trial ∧
      trial.index.toNat = i ∧ trial.seed = (Stream.ofSeed master).draw i) ∧
    (ofSeed master m).toList = (ofSeed master n).toList.take m.toNat ∧
    (0 < n → (ofSeed master n).toList.head?.map (·.seed) = some (singleSeed master)) ∧
    ∀ k,
      let left := (ofSeed master n).after k
      left.position ≤ left.count ∧ (left.count - left.position).toNat = left.remaining ∧
      left.remaining = left.toList.length ∧ left.toList = (ofSeed master n).toList.drop k ∧
      left.stream = (Stream.ofSeed master).after (min k n.toNat) ∧
      (n.toNat ≤ k → left.next? = none ∧ (ofSeed master n).after (k + 1) = left) := by
  have hremaining : (ofSeed master n).remaining = n.toNat := by simp [ofSeed, remaining]
  refine ⟨length_toList_ofSeed master n, ?_, toList_ofSeed_of_le master h, ?_, fun k => ?_⟩
  · intro i hi
    have hat : (ofSeed master n).toList[i]? = some ⟨.ofNat i, (Stream.ofSeed master).draw i⟩ := by
      simp [toList_ofSeed_eq, hi]
    exact ⟨_, hat, index_of_getElem?_ofSeed hat, rfl⟩
  · intro hpos
    have hn : 0 < n.toNat := UInt32.lt_iff_toNat_lt.mp hpos
    have hfirst :
        (ofSeed master n).toList[0]? = some ⟨.ofNat 0, (Stream.ofSeed master).draw 0⟩ := by
      simp [toList_ofSeed_eq, hn]
    rw [List.head?_eq_getElem?, hfirst]
    rfl
  · have hstream := stream_after (ofSeed master n) k
    rw [hremaining] at hstream
    refine ⟨((ofSeed master n).after k).position_le, toNat_count_sub_position _,
      (length_toList _).symm, toList_after _ _, hstream, fun hend => ?_⟩
    -- after as many calls as there are trials nothing remains, and further calls do nothing
    have hnone : ((ofSeed master n).after k).next? = none := by
      rw [next?_eq_none_iff, remaining_after, hremaining]
      omega
    exact ⟨hnone, advance_of_none hnone⟩

/-- The longest schedule there is, of which three trials have been taken. -/
theorem index_and_draw_in_step_of_longest :
    let schedule := ofSeed 7 0xFFFFFFFF
    (ofSeed 7 3).toList = schedule.toList.take 3 ∧ (schedule.after 3).remaining = 0xFFFFFFFC ∧
      schedule.toList.head?.map (·.seed) = some (singleSeed 7) ∧
      (schedule.after 0x100000005).next? = none := by
  intro schedule
  have hle : (3 : UInt32) ≤ 0xFFFFFFFF := by decide
  obtain ⟨hlength, -, hbeginning, hfirst, hleft⟩ := index_and_draw_in_step 7 hle
  obtain ⟨-, -, hremaining, hlist, -, -⟩ := hleft 3
  obtain ⟨-, -, -, -, -, hend⟩ := hleft 0x100000005
  refine ⟨hbeginning, ?_, hfirst (by decide), (hend (by decide)).1⟩
  rw [hremaining, hlist, List.length_drop, hlength]
  decide

end Schedule
end Trials
end CombatTrials
