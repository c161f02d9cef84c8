import Mathlib.Data.List.Induction
import Mathlib.Order.Defs.Unbundled
import CombatTrials.Data.Ledger
import CombatTrials.Data.Sum

/-!
# What writing to a ledger does

`Ledger.alter` is the one operation that writes, so what is proved of it here holds of every record,
scope, histogram and registry. Four questions matter to those who use a ledger.

* **What is read afterwards?** `find?_alter_ne` needs nothing, not even that the ledger is in order:
  an insertion cannot hide the entry of another key. `find?_alter_self` needs the order, because a
  key that stands behind a greater one would not be found by `alter` and would be found by `find?`.
* **Is it still in order?** `Ascending.alter`.
* **What else changes?** Nothing: `forall_mem_alter` and `sumOf_alter` see the entry of the written
  key and the entries that were there.
* **Does the order of two writes matter?** `alter_comm`: not when they write different keys. This
  too holds of every list. It is what makes a histogram forget in which order outcomes came in.
-/

namespace CombatTrials
namespace Data
namespace Ledger

variable {κ α : Type}

section Lists

variable [DecidableEq κ]

/-- What is read was written there. -/
theorem mem_of_find? {k : κ} {a : α} {l : Ledger κ α} (h : l.find? k = some a) :
    (k, a) ∈ l := by
  induction l with
  | nil => simp [find?] at h
  | cons entry rest ih =>
    obtain ⟨key, b⟩ := entry
    rw [find?] at h
    split at h
    · next hk =>
      simp only [Option.some.injEq] at h
      rw [hk, h]
      exact List.mem_cons_self
    · exact List.mem_cons_of_mem _ (ih h)

theorem mem_keys_iff {k : κ} {l : Ledger κ α} : k ∈ l.keys ↔ l.contains k = true := by
  induction l with
  | nil => simp [keys, contains, find?]
  | cons entry rest ih =>
    have hcons : keys (entry :: rest) = entry.1 :: keys rest := rfl
    rw [hcons, List.mem_cons, ih]
    -- a key that is not the first one is looked for in the rest on both sides
    by_cases hk : k = entry.1
    · simp [contains, find?, hk]
    · simp [contains, find?, hk]

/-- What a list of entries says of a key, the earlier first. -/
def entriesOf (k : κ) (entries : List (κ × α)) : List α :=
  entries.filterMap fun entry => if entry.1 = k then some entry.2 else none

theorem entriesOf_append (k : κ) (entries later : List (κ × α)) :
    entriesOf k (entries ++ later) = entriesOf k entries ++ entriesOf k later :=
  List.filterMap_append

theorem entriesOf_map_self (k : κ) (l : List α) : entriesOf k (l.map fun a => (k, a)) = l := by
  induction l with
  | nil => rfl
  | cons a rest ih =>
    simp only [entriesOf, List.map_cons, List.filterMap_cons, if_true]
    exact congrArg (a :: ·) ih

theorem entriesOf_map_ne {k k' : κ} (hne : k' ≠ k) (l : List α) :
    entriesOf k (l.map fun a => (k', a)) = [] := by
  simp [entriesOf, hne]

end Lists

variable [LT κ]

/-- The entries are in ascending order of their keys, each key once. -/
def Ascending (l : Ledger κ α) : Prop := l.Pairwise fun a b => a.1 < b.1

theorem ascending_nil : Ascending ([] : Ledger κ α) := List.Pairwise.nil

variable [DecidableEq κ]

/-- No key of a ledger that starts behind `k` is `k`. -/
theorem find?_eq_none_of_lt [IsStrictTotalOrder κ (· < ·)] {k : κ} {l : Ledger κ α}
    (h : ∀ entry ∈ l, k < entry.1) : l.find? k = none := by
  induction l with
  | nil => rfl
  | cons entry rest ih =>
    obtain ⟨key, b⟩ := entry
    have hk : k < key := h (key, b) List.mem_cons_self
    have hne : k ≠ key := fun e => irrefl (r := (· < ·)) key (e ▸ hk)
    simp only [find?, if_neg hne]
    exact ih fun entry hm => h entry (List.mem_cons_of_mem _ hm)

/-- In a ledger that is in order, reading a key finds the one entry there is of it. -/
theorem find?_eq_some_iff [IsStrictTotalOrder κ (· < ·)] {k : κ} {a : α} {l : Ledger κ α}
    (h : Ascending l) :
    l.find? k = some a ↔ (k, a) ∈ l := by
  refine ⟨mem_of_find?, fun hm => ?_⟩
  induction l with
  | nil => exact absurd hm List.not_mem_nil
  | cons entry rest ih =>
    obtain ⟨key, b⟩ := entry
    obtain ⟨hfirst, hrest⟩ := List.pairwise_cons.mp h
    rcases List.mem_cons.mp hm with heq | hm
    · obtain ⟨rfl, rfl⟩ := Prod.mk.inj heq
      simp [find?]
    · -- the key of a later entry is greater than the first one
      have hne : k ≠ key := fun e => irrefl (r := (· < ·)) key (e ▸ hfirst (k, a) hm)
      simpa [find?, hne] using ih hrest hm

variable [DecidableLT κ]

/-! ## Reading after writing

A write goes along the list up to its key or the first greater one. Each lemma follows it there,
with the three places at which it can stop as its cases. -/

/-- **A write is not seen at other keys**, even in a list that is not in order. -/
theorem find?_alter_ne {k k' : κ} (hne : k' ≠ k) (f : Option α → α) (l : Ledger κ α) :
    (l.alter k f).find? k' = l.find? k' := by
  induction l with
  | nil => simp [alter, find?, hne]
  | cons entry rest ih =>
    obtain ⟨key, a⟩ := entry
    -- the written entry replaces the first one, goes before it, or goes on into the rest
    rw [alter]
    split
    · next h =>
      subst h
      simp [find?, hne]
    · split
      · simp [find?, hne]
      · simp only [find?, ih]

/-- What is set is read back. This needs no order: the value does not depend on the entry that was
there. -/
theorem find?_set_self (k : κ) (a : α) (l : Ledger κ α) : (l.set k a).find? k = some a := by
  unfold set
  induction l with
  | nil => simp [alter, find?]
  | cons entry rest ih =>
    obtain ⟨key, b⟩ := entry
    rw [alter]
    split
    · simp [find?]
    · next h =>
      split
      · simp [find?]
      · simpa [find?, h] using ih

theorem find?_set_ne {k k' : κ} (hne : k' ≠ k) (a : α) (l : Ledger κ α) :
    (l.set k a).find? k' = l.find? k' := find?_alter_ne hne _ l

/-! ## Entries written one after the other

A ledger that was filled from a list has for each key what was written last. -/

theorem ofList_append (entries later : List (κ × α)) :
    ofList (entries ++ later) = later.foldl (fun l (k, a) => l.set k a) (ofList entries) :=
  List.foldl_append

/-- Of what was written for a key, the last is read. -/
theorem find?_ofList (k : κ) (entries : List (κ × α)) :
    (ofList entries).find? k = (entriesOf k entries).getLast? := by
  induction entries using List.reverseRecOn with
  | nil => rfl
  | append_singleton rest last ih =>
    obtain ⟨key, a⟩ := last
    rw [ofList_append, entriesOf_append]
    by_cases hk : key = k
    · subst hk
      simp [find?_set_self, entriesOf]
    · have hk' : k ≠ key := fun h => hk h.symm
      simp [find?_set_ne hk', ih, entriesOf, hk]

/-- The keys after a write are the keys before it and the one that was written. -/
theorem fst_of_mem_alter {k : κ} {f : Option α → α} {l : Ledger κ α} {entry : κ × α}
    (h : entry ∈ l.alter k f) : entry.1 = k ∨ ∃ e ∈ l, e.1 = entry.1 := by
  induction l with
  | nil =>
    simp only [alter, List.mem_singleton] at h
    exact Or.inl (by rw [h])
  | cons first rest ih =>
    obtain ⟨key, b⟩ := first
    rw [alter] at h
    split at h
    · rcases List.mem_cons.mp h with rfl | hm
      · exact Or.inl rfl
      · exact Or.inr ⟨entry, List.mem_cons_of_mem _ hm, rfl⟩
    · -- on the key, before it or behind it
      split at h
      · rcases List.mem_cons.mp h with rfl | hm
        · exact Or.inl rfl
        · exact Or.inr ⟨entry, hm, rfl⟩
      · rcases List.mem_cons.mp h with rfl | hm
        · exact Or.inr ⟨(key, b), List.mem_cons_self, rfl⟩
        · rcases ih hm with hk | ⟨e, he, heq⟩
          · exact Or.inl hk
          · exact Or.inr ⟨e, List.mem_cons_of_mem _ he, heq⟩

theorem alter_cons_self (k : κ) (f : Option α → α) (b : α) (rest : Ledger κ α) :
    alter k f ((k, b) :: rest) = (k, f (some b)) :: rest := by
  simp [Ledger.alter]

section Ordered

variable [IsStrictTotalOrder κ (· < ·)]

theorem alter_cons_lt {k key : κ} (h : k < key) (f : Option α → α) (b : α) (rest : Ledger κ α) :
    alter k f ((key, b) :: rest) = (k, f none) :: (key, b) :: rest := by
  have hne : k ≠ key := fun e => irrefl (r := (· < ·)) key (e ▸ h)
  simp [Ledger.alter, hne, h]

theorem alter_cons_gt {k key : κ} (h : key < k) (f : Option α → α) (b : α) (rest : Ledger κ α) :
    alter k f ((key, b) :: rest) = (key, b) :: alter k f rest := by
  have hne : k ≠ key := fun e => irrefl (r := (· < ·)) key (e ▸ h)
  have hnlt : ¬ k < key := fun h' => asymm_of (· < ·) h h'
  simp [Ledger.alter, hne, hnlt]

/-- What a write makes of the entry before it is what is read afterwards. -/
theorem find?_alter_self (k : κ) (f : Option α → α) {l : Ledger κ α} (h : Ascending l) :
    (l.alter k f).find? k = some (f (l.find? k)) := by
  induction l with
  | nil => simp [alter, find?]
  | cons entry rest ih =>
    obtain ⟨key, b⟩ := entry
    obtain ⟨hfirst, hrest⟩ := List.pairwise_cons.mp h
    rw [alter]
    split
    · next hk => simp [find?, hk]
    · next hk =>
      split
      · next hlt =>
        -- The key is new: everything from here on stands behind it.
        have hnone : find? k rest = none :=
          find?_eq_none_of_lt fun e he => IsTrans.trans _ _ _ hlt (hfirst e he)
        simp [find?, hk, hnone]
      · simpa [find?, hk] using ih hrest

/-- What a write leaves in a ledger is the new entry of its key and entries that were there. -/
theorem forall_mem_alter {P : κ × α → Prop} {k : κ} {f : Option α → α} {l : Ledger κ α}
    (h : Ascending l) (hold : ∀ e ∈ l, P e) (hnew : P (k, f (l.find? k))) :
    ∀ e ∈ l.alter k f, P e := by
  induction l with
  | nil => simpa [Ledger.alter, find?] using hnew
  | cons entry rest ih =>
    obtain ⟨key, b⟩ := entry
    obtain ⟨hfirst, hrest⟩ := List.pairwise_cons.mp h
    have htail : ∀ e ∈ rest, P e := fun e he => hold e (List.mem_cons_of_mem _ he)
    have hhead : P (key, b) := hold (key, b) List.mem_cons_self
    -- the three places at which a write can stop
    rcases trichotomous_of (· < ·) k key with hlt | rfl | hgt
    · have hnone : find? k ((key, b) :: rest) = none := by
        refine find?_eq_none_of_lt fun e he => ?_
        rcases List.mem_cons.mp he with rfl | hm
        · exact hlt
        · exact IsTrans.trans _ _ _ hlt (hfirst e hm)
      rw [hnone] at hnew
      rw [alter_cons_lt hlt]
      exact List.forall_mem_cons.mpr ⟨hnew, hold⟩
    · rw [alter_cons_self]
      exact List.forall_mem_cons.mpr ⟨by simpa [find?] using hnew, htail⟩
    · have hne : k ≠ key := fun e => irrefl (r := (· < ·)) key (e ▸ hgt)
      rw [alter_cons_gt hgt]
      exact List.forall_mem_cons.mpr ⟨hhead, ih hrest htail (by simpa [find?, hne] using hnew)⟩

/-- A write moves a sum over the entries by what it does to the one entry of its key. -/
theorem sumOf_alter (w : κ × α → Nat) (k : κ) (f : Option α → α) {l : Ledger κ α}
    (h : Ascending l) :
    sumOf w (l.alter k f) + ((l.find? k).elim 0 fun a => w (k, a)) =
      sumOf w l + w (k, f (l.find? k)) := by
  induction l with
  | nil => simp [Ledger.alter, find?, sumOf]
  | cons entry rest ih =>
    obtain ⟨key, b⟩ := entry
    obtain ⟨hfirst, hrest⟩ := List.pairwise_cons.mp h
    -- the write stops here with a new entry, stops here on the key, or goes on into the rest
    rcases trichotomous_of (· < ·) k key with hlt | rfl | hgt
    · have hne : k ≠ key := fun e => irrefl (r := (· < ·)) key (e ▸ hlt)
      have hnone : find? k rest = none :=
        find?_eq_none_of_lt fun e he => IsTrans.trans _ _ _ hlt (hfirst e he)
      simp only [alter_cons_lt hlt, find?, if_neg hne, hnone, Option.elim_none, sumOf_cons]
      omega
    · simp only [alter_cons_self, find?, if_pos, Option.elim_some, sumOf_cons]
      omega
    · have hne : k ≠ key := fun e => irrefl (r := (· < ·)) key (e ▸ hgt)
      have ih := ih hrest
      simp only [alter_cons_gt hgt, find?, if_neg hne, sumOf_cons]
      omega

/-! ## The order of entries

A new entry goes in front of the first greater key, and behind every smaller one. -/

/-- **A write keeps a ledger in order.** -/
theorem Ascending.alter {l : Ledger κ α} (h : Ascending l) (k : κ) (f : Option α → α) :
    Ascending (l.alter k f) := by
  induction l with
  | nil => exact List.pairwise_singleton _ _
  | cons entry rest ih =>
    obtain ⟨key, b⟩ := entry
    obtain ⟨hfirst, hrest⟩ := List.pairwise_cons.mp h
    rw [Ledger.alter]
    split
    · next hk =>
      subst hk
      exact List.pairwise_cons.mpr ⟨hfirst, hrest⟩
    · next hne =>
      split
      · next hlt =>
        refine List.pairwise_cons.mpr ⟨?_, h⟩
        intro e he
        rcases List.mem_cons.mp he with rfl | hm
        · exact hlt
        · exact IsTrans.trans _ _ _ hlt (hfirst e hm)
      · next hnlt =>
        refine List.pairwise_cons.mpr ⟨?_, ih hrest⟩
        intro e he
        -- an entry of the written rest has the new key or one that stood there
        rcases fst_of_mem_alter he with hk | ⟨e', he', heq⟩
        · have hgt : key < k := by
            rcases trichotomous_of (· < ·) k key with h' | h' | h'
            · exact absurd h' hnlt
            · exact absurd h' hne
            · exact h'
          simpa [hk] using hgt
        · simpa [heq] using hfirst e' he'

/-! ## The order of writes

Two writes can be exchanged because each leaves alone what the other one looks at. By cases on where
the two keys go, and the smaller one goes first. -/

theorem alter_comm_of_lt {k k' : κ} (hlt : k < k') (f g : Option α → α) (l : Ledger κ α) :
    (l.alter k f).alter k' g = (l.alter k' g).alter k f := by
  induction l with
  | nil =>
    change alter k' g [(k, f none)] = alter k f [(k', g none)]
    rw [alter_cons_gt hlt, alter_cons_lt hlt]
    rfl
  | cons entry rest ih =>
    obtain ⟨key, b⟩ := entry
    rcases trichotomous_of (· < ·) k key with h | rfl | h
    · rw [alter_cons_lt h, alter_cons_gt hlt]
      -- Whatever the greater key does, the list still starts behind the smaller one.
      rcases trichotomous_of (· < ·) k' key with h' | rfl | h'
      · rw [alter_cons_lt h', alter_cons_lt hlt]
      · rw [alter_cons_self, alter_cons_lt hlt]
      · rw [alter_cons_gt h', alter_cons_lt h]
    · rw [alter_cons_self, alter_cons_gt hlt, alter_cons_gt hlt, alter_cons_self]
    · have h' : key < k' := IsTrans.trans _ _ _ h hlt
      rw [alter_cons_gt h, alter_cons_gt h', alter_cons_gt h', alter_cons_gt h, ih]

/-- **Writes to different keys commute**, whether or not the ledger is in order. -/
theorem alter_comm {k k' : κ} (hne : k ≠ k') (f g : Option α → α) (l : Ledger κ α) :
    (l.alter k f).alter k' g = (l.alter k' g).alter k f := by
  rcases trichotomous_of (· < ·) k k' with hlt | heq | hgt
  · exact alter_comm_of_lt hlt f g l
  · exact absurd heq hne
  · exact (alter_comm_of_lt hgt g f l).symm

end Ordered

end Ledger
end Data
end CombatTrials
