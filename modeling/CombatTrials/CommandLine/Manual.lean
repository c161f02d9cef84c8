import CombatTrials.CommandLine.Arguments

/-!
# Manuals

What a program says about the use of a command: a sentence, a line with the shape of its arguments,
and tables of what can stand there. The columns of a table are aligned, and the names of options are
written so that the long ones stand below one another.
-/

namespace CombatTrials
namespace CommandLine

/-- What is said about the use of a command. -/
structure Manual where
  about : String
  usage : String
  /-- Tables with their titles; a row is an entry and what is said about it. -/
  tables : List (String × List (String × String))

/-- How an option is written. -/
def OptionSpec.heading (spec : OptionSpec) : String :=
  let short := match spec.short with
    | some c => "-" ++ c.toString ++ ", "
    | none => "    "
  let value := if spec.takesValue then " <" ++ spec.long.map Char.toUpper ++ ">" else ""
  short ++ "--" ++ spec.long ++ value

/-- The row of an option, with the value that it has when it is not given. -/
def OptionSpec.row (spec : OptionSpec) : String × String :=
  (spec.heading, match spec.standard with
    | some value => spec.about ++ " [default: " ++ value ++ "]"
    | none => spec.about)

namespace Manual

/-- The lines of a table whose first column has some width. -/
def tableText (width : Nat) : List (String × String) → String
  | [] => ""
  | (entry, about) :: rest =>
    "  " ++ entry ++ String.ofList (List.replicate (width - entry.length) ' ') ++
      "  " ++ about ++ "\n" ++ tableText width rest

/-- The width of the first column of a table. -/
def columnWidth (rows : List (String × String)) : Nat :=
  rows.foldr (fun row width => max row.1.length width) 0

/-- Tables one after the other, each after a blank line. -/
def tablesText : List (String × List (String × String)) → String
  | [] => ""
  | (title, rows) :: rest =>
    "\n" ++ title ++ ":\n" ++ tableText (columnWidth rows) rows ++ tablesText rest

/-- The text of a manual. -/
def text (m : Manual) : String := m.about ++ "\n\nUsage: " ++ m.usage ++ "\n" ++ tablesText m.tables

end Manual
end CommandLine
end CombatTrials
