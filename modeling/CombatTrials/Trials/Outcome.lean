import CombatTrials.Data.Format
import CombatTrials.Stage.Ending
import CombatTrials.Text.Json

/-!
# Outcomes

An `Outcome` is what is counted of an ending: its kind, and for the two kinds that a side was
defeated on, the turn. Outcomes are ordered by kind and then by turn (`Outcome.place`), and
everything that lists outcomes lists them in that order.

In JSON an outcome is an object that names its kind in a field of its own, beside the turn if it has
one.
-/

namespace CombatTrials
namespace Trials

open Data (Format required)
open Stage (Ending)
open Text (Json)

/-- What is counted of an ending. -/
inductive Outcome where
  | excluded
  | victory (turn : UInt32)
  | timeout
  | wipe (turn : UInt32)
  | error
  deriving DecidableEq, Repr

namespace Outcome

/-- What is counted of an ending. -/
def ofEnding : Ending → Outcome
  | .excluded => .excluded
  | .victory turn => .victory turn
  | .outOfTurns => .timeout
  | .wipe turn => .wipe turn
  | .fault _ => .error

/-- The place of an outcome in the order of outcomes. -/
def place : Outcome → Nat
  | .excluded => 0
  | .victory turn => UInt32.size + turn.toNat
  | .timeout => 2 * UInt32.size
  | .wipe turn => 3 * UInt32.size + turn.toNat
  | .error => 4 * UInt32.size

instance : LT Outcome := ⟨fun a b => a.place < b.place⟩

instance : DecidableLT Outcome := fun a b => inferInstanceAs (Decidable (a.place < b.place))

/-! ## JSON -/

/-- The name of a kind. -/
def kindName : Outcome → String
  | .excluded => "excluded"
  | .victory _ => "victory"
  | .timeout => "end"
  | .wipe _ => "wipe"
  | .error => "error"

/-- The turn, for the kinds that have one. -/
def turn? : Outcome → Option UInt32
  | .victory turn => some turn
  | .wipe turn => some turn
  | _ => none

/-- An outcome as JSON. -/
def toJson (o : Outcome) : Json :=
  .object (("kind", .text o.kindName) ::
    match o.turn? with
    | some turn => [("turn", .natural turn.toNat)]
    | none => [])

/-- The outcome of a kind, whose turn is read where the kind has one. -/
def ofKind? (kind : String) (turn : Option UInt32) : Option Outcome :=
  match kind with
  | "excluded" => some .excluded
  | "victory" => turn.map .victory
  | "end" => some .timeout
  | "wipe" => turn.map .wipe
  | "error" => some .error
  | _ => none

/-- Whether a kind has a turn. -/
def kindHasTurn (kind : String) : Bool := kind == "victory" || kind == "wipe"

/-- An outcome of a data file: its kind, and beside it the turn where there is one. -/
def read? {δ : Type} (f : Format δ) (d : δ) : Option Outcome := do
  let (kind, contents) ← f.tagged? "kind" d
  if kindHasTurn kind then
    let fields ← f.fields? "" ["turn"] 1 contents
    ofKind? kind (some (← required fields "turn" f.word32?))
  else
    let _ ← f.fields? "" [] 0 contents
    ofKind? kind none

end Outcome
end Trials
end CombatTrials
