import Mathlib.Algebra.Order.Ring.Int
import Mathlib.Order.Bounds.Defs
import CombatTrials.Proofs.Arena.Attrition
import CombatTrials.Proofs.Arena.Logging

/-!
# The party attacks up to the kill

When the party attacks, the members that stand hit the boss in formation order, and whoever comes
after the hit that fells it neither hits nor throws. To say so, let everybody who stands roll a
damage first, one after the other and whether he comes to hit or not (`rolls`). How many of these
hits are made (`Lands`) is then a matter of the damages and of the hit points of the boss alone. All
that the attack leaves behind follows from this number: the hit points of the boss, the lines that
are written, and the dice. A throw too many would show in none of the first two, and in every later
throw of the fight.
-/

namespace CombatTrials
namespace Arena

open Chance (Dice)

variable {ρ : Type}

/-! ## How many hits are made

This part is about numbers only. Hits are made as long as something is left, so of a list of damages
the first so many are made, and how many depends on the sums of its initial segments. -/

/-- Of hits with some damages, one after the other, the first `k` are made on somebody who starts
with `hp` hit points and the others are not. -/
inductive Lands (hp : Int) (damages : List Int) : Nat → Prop
  /-- Who is down already is not hit. -/
  | down (h : hp ≤ 0) : Lands hp damages 0
  /-- The last of the hits is the first after which nothing is left. -/
  | fells {k : Nat} (h : 0 < hp)
      (hk : IsLeast {n | n ≤ damages.length ∧ hp - (damages.take n).sum ≤ 0} k) :
      Lands hp damages k
  /-- All hits are made on somebody who stands after all of them. -/
  | stands (h : ∀ n ≤ damages.length, 0 < hp - (damages.take n).sum) :
      Lands hp damages damages.length

/-- What is left after one hit more, told from the hit points before the first hit or after it. -/
theorem left_take_succ (hp damage : Int) (damages : List Int) (n : Nat) :
    hp - ((damage :: damages).take (n + 1)).sum = hp - damage - (damages.take n).sum := by
  rw [List.take_succ_cons, List.sum_cons, Int.sub_sub]

/-- One hit more is made on somebody who stands before it. -/
theorem Lands.cons {hp damage : Int} {damages : List Int} {k : Nat} (h : 0 < hp)
    (hl : Lands (hp - damage) damages k) : Lands hp (damage :: damages) (k + 1) := by
  -- whatever number of hits leaves nothing, the first hit is one of them
  have hfirst : ∀ n, hp - ((damage :: damages).take n).sum ≤ 0 →
      ∃ m, n = m + 1 ∧ hp - damage - (damages.take m).sum ≤ 0 := by
    intro n hdown
    cases n with
    | zero => exact absurd h (Int.not_lt.mpr (by simpa using hdown))
    | succ m =>
      rw [left_take_succ] at hdown
      exact ⟨m, rfl, hdown⟩
  -- What the rest of the hits does to somebody with the first behind him decides the three cases.
  -- The first hit itself is the kill if nothing of the rest is needed.
  cases hl with
  | down hdown =>
    refine .fells h ⟨⟨Nat.succ_le_succ (Nat.zero_le _), ?_⟩, ?_⟩
    · rw [left_take_succ]
      simpa using hdown
    · intro n hn
      obtain ⟨m, rfl, -⟩ := hfirst n hn.2
      exact Nat.succ_le_succ (Nat.zero_le m)
  | fells _ hk =>
    obtain ⟨⟨hlength, hdown⟩, hleast⟩ := hk
    refine .fells h ⟨⟨Nat.succ_le_succ hlength, ?_⟩, ?_⟩
    · rwa [left_take_succ]
    · intro n hn
      obtain ⟨m, rfl, hleft⟩ := hfirst n hn.2
      exact Nat.succ_le_succ (hleast ⟨Nat.le_of_succ_le_succ hn.1, hleft⟩)
  | stands hup =>
    apply Lands.stands
    intro n hn
    apply Int.not_le.mp
    intro hdown
    obtain ⟨m, rfl, hleft⟩ := hfirst n hdown
    exact Int.not_le.mpr (hup m (Nat.le_of_succ_le_succ hn)) hleft

/-! ## What is rolled

Members roll one after the other with the dice that the one before left. A roll asks for attack and
defense and nothing else, so what is rolled does not depend on what the boss has left. -/

section Rolls

variable [Dice ρ]

end Rolls

/-! ## What is told

Every hit that is made has a line with the hit points of the boss after it, which the log never
shows below zero. -/

namespace Fight

variable [Dice ρ] {fight : Fight ρ}

end Fight

end Arena
end CombatTrials
