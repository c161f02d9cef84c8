/-!
# Data files

What reading a data file can meet, and how far it gets: there is nothing at the path, there is
something that cannot be read as text, the text is not of the expected form, or there is a value. A
file that is not valid UTF-8 cannot be read as text.
-/

namespace CombatTrials
namespace Data

/-- What was found at a path. -/
inductive File where
  | missing
  /-- Something that yields no bytes, such as a directory. -/
  | unreadable
  | bytes (contents : ByteArray)

/-- Why a data file yielded no value. -/
inductive FileProblem where
  | missing
  | unreadable
  | malformed
  deriving DecidableEq, Repr

/-- The text of a file. -/
def File.text : File → Except FileProblem String
  | .missing => .error .missing
  | .unreadable => .error .unreadable
  | .bytes contents =>
    match String.fromUTF8? contents with
    | some s => .ok s
    | none => .error .unreadable

/-- A value read from text, which may be malformed. -/
def readText {α : Type} (read? : String → Option α) (text : String) : Except FileProblem α :=
  match read? text with
  | some a => .ok a
  | none => .error .malformed

/-- A value read from a file. -/
def File.load {α : Type} (read? : String → Option α) (file : File) : Except FileProblem α := do
  readText read? (← file.text)

end Data
end CombatTrials
