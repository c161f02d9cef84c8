import Mathlib.Data.List.Perm.Basic
import CombatTrials.Data.Sum

/-!
# Exchanging one item of a list

A worker goes on, a lane takes a report, a job changes its phase: every move of a pool or a
simulator replaces one item of a list, and now and then one is taken out. What is conserved by a
move is said of the whole list, either as a sum (`sumOf`) or up to the order of what is listed
(`~`). So both are brought down to the one item here: `set_perm` and `perm_of_getElem?` name the
items that stay.
-/

namespace CombatTrials
namespace Data

variable {α β : Type}

open List (Perm)

/-! ## Up to order

Both facts bring a list down to the item at a place and the others, and it is the same others on
either side of an exchange. -/

/-- A list is its item at some place and the others, in another order. -/
theorem perm_of_getElem? {l : List α} {i : Nat} {a : α} (h : l[i]? = some a) :
    Perm l (a :: l.eraseIdx i) := by
  obtain ⟨hi, ha⟩ := List.getElem?_eq_some_iff.mp h
  rw [← ha]
  exact (List.getElem_cons_eraseIdx_perm hi).symm

/-- The items that stay are the same whatever is put in the place of the one exchanged. -/
theorem set_perm {l : List α} {i : Nat} {a : α} (h : l[i]? = some a) (b : α) :
    Perm (l.set i b) (b :: l.eraseIdx i) := by
  obtain ⟨hi, -⟩ := List.getElem?_eq_some_iff.mp h
  exact List.set_perm_cons_eraseIdx hi b

/-- Items that an exchange does not touch list the same as before. -/
theorem flatMap_set_perm {l : List α} {i : Nat} {a : α} (h : l[i]? = some a) (b : α)
    (f : α → List β) :
    ∃ rest, Perm (l.flatMap f) (f a ++ rest) ∧ Perm ((l.set i b).flatMap f) (f b ++ rest) := by
  refine ⟨(l.eraseIdx i).flatMap f, ?_, ?_⟩
  · simpa only [List.flatMap_cons] using (perm_of_getElem? h).flatMap_right f
  · simpa only [List.flatMap_cons] using (set_perm h b).flatMap_right f

theorem flatMap_eraseIdx_perm {l : List α} {i : Nat} {a : α} (h : l[i]? = some a) (f : α → List β) :
    Perm (l.flatMap f) (f a ++ (l.eraseIdx i).flatMap f) := by
  simpa only [List.flatMap_cons] using (perm_of_getElem? h).flatMap_right f

/-! ## Sums

Sums forget the order, so they follow from the facts above. -/

theorem sumOf_append (f : α → Nat) (l l' : List α) :
    sumOf f (l ++ l') = sumOf f l + sumOf f l' := by
  induction l with
  | nil => simp [sumOf_nil]
  | cons a rest ih => simp only [List.cons_append, sumOf_cons, ih, Nat.add_assoc]

theorem sumOf_map (f : β → Nat) (g : α → β) (l : List α) :
    sumOf f (l.map g) = sumOf (fun a => f (g a)) l := by
  induction l with
  | nil => rfl
  | cons a rest ih => simp only [List.map_cons, sumOf_cons, ih]

theorem sumOf_perm (f : α → Nat) {l l' : List α} (h : Perm l l') : sumOf f l = sumOf f l' := by
  induction h with
  | nil => rfl
  | cons a _ ih => simp only [sumOf_cons, ih]
  | swap a b l => simp only [sumOf_cons]; omega
  | trans _ _ ih₁ ih₂ => exact ih₁.trans ih₂

/-- An exchange moves a sum by the difference of the two items. It is told without a subtraction,
since the new item may count less than the old one. -/
theorem sumOf_set (f : α → Nat) {l : List α} {i : Nat} {a : α} (h : l[i]? = some a) (b : α) :
    sumOf f (l.set i b) + f a = sumOf f l + f b := by
  rw [sumOf_perm f (set_perm h b), sumOf_perm f (perm_of_getElem? h), sumOf_cons, sumOf_cons]
  omega

theorem sumOf_eraseIdx (f : α → Nat) {l : List α} {i : Nat} {a : α} (h : l[i]? = some a) :
    sumOf f (l.eraseIdx i) + f a = sumOf f l := by
  rw [sumOf_perm f (perm_of_getElem? h), sumOf_cons]
  omega

theorem le_sumOf (f : α → Nat) {l : List α} {a : α} (h : a ∈ l) : f a ≤ sumOf f l := by
  obtain ⟨i, hi⟩ := List.mem_iff_getElem?.mp h
  rw [← sumOf_eraseIdx f hi]
  exact Nat.le_add_left _ _

end Data
end CombatTrials
