import CombatTrials.Script.Eval

/-!
# Probes

Functions that make an evaluation visible. A probe writes down that it was called, and most of them
answer in a way that says what with: `mark` and `echo` note the number they were given, `first` the
text of a value that it hands back unchanged, `count` how many arguments there were. `negate` and
`sum` compute without a note, and `reject` refuses every call.

The host's state is the list of notes, the latest first.
-/

namespace CombatTrials
namespace Fixture

open Script (Value Native Host Run Failure)

/-- What a probe does. -/
inductive Probe where
  | mark
  | echo
  | first
  | negate
  | sum
  | count
  | reject
  deriving DecidableEq, Repr, Inhabited

/-- A note: the name of the function that wrote it, and what it wrote. -/
abbrev Note := String × String

namespace Probe

/-- The probe of a name; every other name is that of a function that refuses. -/
def ofName : String → Probe
  | "mark" => .mark
  | "echo" => .echo
  | "first" => .first
  | "not" => .negate
  | "sum" => .sum
  | "count" => .count
  | _ => .reject

/-- Writes a note. -/
def note (name text : String) : Run (List Note) Unit := modify ((name, text) :: ·)

/-- The first argument. -/
def firstArgument (name : String) : List (Value Probe) → Except Failure (Value Probe)
  | [] => .error (.call name "no arguments")
  | v :: _ => .ok v

/-- The sum of the arguments from left to right, which stops at the first that is no number. -/
def total (acc : Float) : List (Value Probe) → Except Failure Float
  | [] => .ok acc
  | v :: rest => do
    let n ← v.toNumber
    total (acc + n) rest

/-- The functions that probes are called as. -/
def host : Host Probe (List Note) where
  call f args :=
    match f.code with
    | .mark => do
      let v ← Run.ofExcept (firstArgument f.name args)
      let n ← Run.ofExcept v.toNumber
      note f.name (Numeric.bitsText n)
      pure (.boolean true)
    | .echo => do
      let v ← Run.ofExcept (firstArgument f.name args)
      let n ← Run.ofExcept v.toNumber
      note f.name (Numeric.bitsText n)
      pure (.number n)
    | .first => do
      let v ← Run.ofExcept (firstArgument f.name args)
      note f.name v.text
      pure v
    | .negate => do
      let v ← Run.ofExcept (firstArgument f.name args)
      let b ← Run.ofExcept v.toBoolean
      pure (.boolean (!b))
    | .sum => do
      let n ← Run.ofExcept (total 0 args)
      pure (.number n)
    | .count => do
      note f.name (toString args.length)
      pure (.number args.length.toFloat)
    | .reject => throw (.call f.name "rejected")

end Probe
end Fixture
end CombatTrials
