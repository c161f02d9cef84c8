/-!
# Consistency of runs

A job has to come to the same result however it is run. To check that, it is run in several variants
and the digests of the results are compared. `Consistency.isConsistent` compares neighbours only,
and `distinct` lists which digests there were, for the message when there was more than one.
-/

namespace CombatTrials
namespace Trials

/-- The digests of several runs, in the order of the runs. -/
structure Consistency where
  digests : List UInt64
  deriving DecidableEq, Repr

namespace Consistency

/-- Runs every variant once. -/
def check {α β : Type} (digest : β → UInt64) (run : α → β) (variants : List α) : Consistency :=
  ⟨variants.map fun variant => digest (run variant)⟩

/-- Whether every digest equals the next one. -/
def neighboursEqual : List UInt64 → Bool
  | a :: b :: rest => a == b && neighboursEqual (b :: rest)
  | _ => true

/-- Whether the runs came to the same. -/
def isConsistent (c : Consistency) : Bool := neighboursEqual c.digests

/-- Puts a digest into an ascending list, unless it is there. -/
def insert (a : UInt64) : List UInt64 → List UInt64
  | [] => [a]
  | b :: rest => if a < b then a :: b :: rest else if a = b then b :: rest else b :: insert a rest

/-- The digests in ascending order, each once. -/
def distinct (c : Consistency) : List UInt64 := c.digests.foldr insert []

/-- The message of a failed assertion that the runs came to the same; none when they did. -/
def complaint? (c : Consistency) : Option String :=
  if c.isConsistent then none
  else
    some (s!"Simulation is non-deterministic!\nRuns: {c.digests.length}\n" ++
      s!"Unique hashes: {c.distinct.length} (expected 1)\n" ++
      s!"All hashes: [" ++ String.intercalate ", " (c.digests.map toString) ++ "]")

end Consistency
end Trials
end CombatTrials
