import CombatTrials.Stage.Ending
import CombatTrials.Text.Inspected

/-!
# Endings shown for inspection

The inspected form of an ending names its case and, in braces or parentheses, what is in it, down to
the texts of a failure.
-/

namespace CombatTrials
namespace Stage

open Text.Inspected (quote)

/-- A case with named parts as it is shown. -/
def inspectCase (name : String) (parts : List (String × String)) : String :=
  name ++ " \x7b " ++
    String.intercalate ", " (parts.map fun (part, text) => part ++ ": " ++ text) ++ " \x7d"

/-- A failure of a script as it is shown. -/
def inspectFailure : Script.Failure → String
  | .undefinedName name => "UndefinedName(" ++ quote name ++ ")"
  | .noAttribute typeName name =>
    inspectCase "Attribute" [("type_name", quote typeName), ("name", quote name)]
  | .mismatch expected found =>
    inspectCase "Type" [("expected", quote expected.name), ("found", quote found)]
  | .notCallable typeName => "NotCallable(" ++ quote typeName ++ ")"
  | .arity callee expected found =>
    inspectCase "Arity"
      [("callee", quote callee), ("expected", toString expected), ("found", toString found)]
  | .call callee message =>
    inspectCase "Call" [("callee", quote callee), ("message", quote message)]
  | .noMatchingCase subject => inspectCase "NoMatchingCase" [("subject", quote subject)]

/-- A fault as it is shown. -/
def PlayFault.inspect : PlayFault → String
  | .script turn failure =>
    inspectCase "Script" [("turn", toString turn), ("source", inspectFailure failure)]
  | .crashed message => "Panicked(" ++ quote message ++ ")"
  | .engine message => "Engine(" ++ quote message ++ ")"

/-- An ending as it is shown. -/
def Ending.inspect : Ending → String
  | .excluded => "Excluded"
  | .victory turn => inspectCase "Victory" [("turn", toString turn)]
  | .outOfTurns => "OutOfTurns"
  | .wipe turn => inspectCase "TeamWipe" [("turn", toString turn)]
  | .fault cause => "PlayError(" ++ cause.inspect ++ ")"

end Stage
end CombatTrials
