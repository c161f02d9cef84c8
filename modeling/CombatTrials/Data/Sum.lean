/-!
# Sums over lists

`sumOf f l` adds up what `f` says of each item, items counted as often as they occur.
-/

namespace CombatTrials
namespace Data

variable {α : Type}

/-- The sum of a quantity over the items of a list. -/
def sumOf (f : α → Nat) (l : List α) : Nat := l.foldr (fun a n => f a + n) 0

theorem sumOf_nil (f : α → Nat) : sumOf f [] = 0 := rfl

theorem sumOf_cons (f : α → Nat) (a : α) (l : List α) : sumOf f (a :: l) = f a + sumOf f l := rfl

end Data
end CombatTrials
