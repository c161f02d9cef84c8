/-!
# Ledgers

A `Ledger` is a list of entries in ascending order of their keys, each key once. Attributes of a
record, variables of a scope, buckets of a histogram and snapshots of a registry are all kept this
way: the order in which they are listed is the order of their keys, and two ledgers with the same
entries are the same list.

`alter` is the one operation that writes; it keeps the entries in order.
-/

namespace CombatTrials
namespace Data

/-- Entries in ascending order of their keys. -/
abbrev Ledger (κ α : Type) := List (κ × α)

namespace Ledger

variable {κ α : Type} [DecidableEq κ] [LT κ] [DecidableLT κ]

/-- The entry of a key. -/
def find? (k : κ) : Ledger κ α → Option α
  | [] => none
  | (k', a) :: rest => if k = k' then some a else find? k rest

/-- Whether a key has an entry. -/
def contains (k : κ) (l : Ledger κ α) : Bool := (l.find? k).isSome

/-- Replaces the entry of a key by what `f` makes of it, or adds one. -/
def alter (k : κ) (f : Option α → α) : Ledger κ α → Ledger κ α
  | [] => [(k, f none)]
  | (k', a) :: rest =>
    if k = k' then (k, f (some a)) :: rest
    else if k < k' then (k, f none) :: (k', a) :: rest
    else (k', a) :: alter k f rest

/-- Sets the entry of a key. -/
def set (k : κ) (a : α) (l : Ledger κ α) : Ledger κ α := l.alter k fun _ => a

/-- The keys, in ascending order. -/
def keys (l : Ledger κ α) : List κ := l.map Prod.fst

/-- A ledger of entries given in any order; a later entry replaces an earlier one of the same
key. -/
def ofList (entries : List (κ × α)) : Ledger κ α :=
  entries.foldl (fun l (k, a) => l.set k a) []

end Ledger
end Data
end CombatTrials
