import CombatTrials.Data.Ledger
import CombatTrials.Trials.Outcome

/-!
# Histograms

A `Histogram` counts outcomes. Its entries are the outcomes that occurred, in the order of outcomes,
each once and with its count, so two histograms of the same counts are the same list.
-/

namespace CombatTrials
namespace Trials

open Data (Format required)
open Text (Json)

/-- How often each outcome occurred. -/
structure Histogram where
  buckets : Data.Ledger Outcome UInt64 := []
  deriving DecidableEq, Repr

/-- An outcome and how often it occurred. -/
structure Entry where
  outcome : Outcome
  count : UInt64
  deriving DecidableEq, Repr

/-- How often an outcome occurs in a list of entries: the count of its first entry. -/
def Entry.countIn (entries : List Entry) (outcome : Outcome) : UInt64 :=
  match entries.find? (·.outcome == outcome) with
  | some entry => entry.count
  | none => 0

/-- The sum of the counts of entries. -/
def Entry.total (entries : List Entry) : UInt64 := entries.foldr (fun entry n => entry.count + n) 0

namespace Histogram

/-- Counts an outcome. -/
def record (h : Histogram) (outcome : Outcome) : Histogram :=
  ⟨h.buckets.alter outcome fun count => count.getD 0 + 1⟩

/-- How often an outcome occurred. -/
def count (h : Histogram) (outcome : Outcome) : UInt64 := (h.buckets.find? outcome).getD 0

/-- How many outcomes were counted. -/
def total (h : Histogram) : UInt64 := h.buckets.foldr (fun bucket n => bucket.2 + n) 0

/-- The entries, in the order of outcomes. -/
def entries (h : Histogram) : List Entry := h.buckets.map fun (outcome, count) => ⟨outcome, count⟩

/-- The histogram of outcomes counted one after the other. -/
def ofList (outcomes : List Outcome) : Histogram := outcomes.foldl record {}

end Histogram

/-- An entry as JSON. -/
def Entry.toJson (e : Entry) : Json :=
  .object [("outcome", e.outcome.toJson), ("count", .natural e.count.toNat)]

/-- An entry of a data file. -/
def Entry.read? {δ : Type} (f : Format δ) (d : δ) : Option Entry := do
  let fields ← f.fields? "" ["outcome", "count"] 2 d
  let outcome ← required fields "outcome" (Outcome.read? f)
  return ⟨outcome, ← required fields "count" f.word64?⟩

end Trials
end CombatTrials
