import CombatTrials.Chance.ChaCha

/-!
# Seed schedules

All seeds of a job are draws of one stream, taken in the order of the iterations before any of them
is played. Which seed an iteration is played with depends on the master seed and on its index alone.
-/

namespace CombatTrials
namespace Trials

open Chance (Stream)

/-- An iteration to play. -/
structure Trial where
  /-- Counted from zero. -/
  index : UInt32
  seed : UInt64
  deriving DecidableEq, Repr

/-- What is left of a schedule. -/
structure Schedule where
  stream : Stream
  /-- The index of the next trial. -/
  position : UInt32
  /-- How many trials there are in all. -/
  count : UInt32
  /-- The position never passes the end. -/
  position_le : position ≤ count

namespace Schedule

/-- The index after one that is below the count does not pass it. -/
theorem succ_le {position count : UInt32} (h : position < count) : position + 1 ≤ count := by
  have h' := UInt32.lt_iff_toNat_lt.1 h
  have hc := count.toNat_lt
  rw [UInt32.le_iff_toNat_le, UInt32.toNat_add]
  simp only [UInt32.toNat_one]
  omega

/-- The schedule of some number of trials under a master seed. -/
def ofSeed (master : UInt64) (count : UInt32) : Schedule :=
  ⟨.ofSeed master, 0, count, UInt32.zero_le⟩

/-- How many trials are still to come. -/
def remaining (s : Schedule) : Nat := s.count.toNat - s.position.toNat

/-- The next trial and the schedule after it; at the end nothing is drawn. -/
def next? (s : Schedule) : Option (Trial × Schedule) :=
  if h : s.position < s.count then
    let (seed, stream) := s.stream.next
    some (⟨s.position, seed⟩, ⟨stream, s.position + 1, s.count, succ_le h⟩)
  else none

/-- The next `n` trials, as far as there are any, after those drawn before, of which the latest
comes first. -/
def takeAfter : (n : Nat) → (drawn : List Trial) → Schedule → List Trial × Schedule
  | 0, drawn, s => (drawn.reverse, s)
  | n + 1, drawn, s =>
    match s.next? with
    | none => (drawn.reverse, s)
    | some (trial, s) => takeAfter n (trial :: drawn) s

/-- The next `n` trials, as far as there are any, and the schedule after them. -/
def take (n : Nat) (s : Schedule) : List Trial × Schedule := takeAfter n [] s

/-- The trials to come. -/
def toList (s : Schedule) : List Trial := (s.take s.remaining).1

end Schedule

/-- The seed of a job with a single iteration: the first draw. -/
def singleSeed (master : UInt64) : UInt64 := (Stream.ofSeed master).next.1

end Trials
end CombatTrials
