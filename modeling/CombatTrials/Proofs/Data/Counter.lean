/-!
# Counting up

Turns, iterations and completed plays are counted in thirty-two bits. A counter that has not reached
the greatest number counts as the natural numbers do.
-/

namespace CombatTrials
namespace Data

variable {n m : UInt32}

/-- Counters are added as natural numbers are, where the sum fits. -/
theorem toNat_add (h : n.toNat + m.toNat < UInt32.size) : (n + m).toNat = n.toNat + m.toNat := by
  rw [UInt32.toNat_add]
  exact Nat.mod_eq_of_lt h

theorem toNat_succ (h : n.toNat + 1 < UInt32.size) : (n + 1).toNat = n.toNat + 1 := toNat_add h

/-- No counter passes the end before a bound that it has not reached. -/
theorem toNat_succ_of_lt (h : n.toNat < m.toNat) : (n + 1).toNat = n.toNat + 1 :=
  toNat_succ (Nat.lt_of_le_of_lt h m.toNat_lt_size)

end Data
end CombatTrials
