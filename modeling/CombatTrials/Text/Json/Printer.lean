import CombatTrials.Text.Json

/-!
# Writing JSON

Two forms: `Json.compact` on one line without blanks, and `Json.pretty` with one item to a line,
indented by two spaces. Strings escape what JSON makes them escape and no more: the quote, the
backslash and the control characters below the space, five of which have a letter.
-/

namespace CombatTrials
namespace Text
namespace Json

/-- A hexadecimal digit, in lower case. -/
def hexDigit (n : Nat) : Char := Nat.digitChar (n % 16)

/-- A character as it stands in a string. -/
def escapeChar (c : Char) : List Char :=
  if c = '"' then ['\\', '"']
  else if c = '\\' then ['\\', '\\']
  else if c = '\x08' then ['\\', 'b']
  else if c = '\x0c' then ['\\', 'f']
  else if c = '\n' then ['\\', 'n']
  else if c = '\r' then ['\\', 'r']
  else if c = '\t' then ['\\', 't']
  else if c.toNat < 0x20 then ['\\', 'u', '0', '0', hexDigit (c.toNat / 16), hexDigit c.toNat]
  else [c]

/-- A string with its quotes. -/
def quote (s : String) : String := String.ofList ('"' :: (s.toList.flatMap escapeChar ++ ['"']))

/-- A number with an exponent. -/
def decimalText (d : Numeric.Decimal) : String :=
  (if d.negative then "-" else "") ++ toString d.digits ++ "e" ++ toString d.exponent

/-- A value that is neither a list nor an object. -/
def scalarText : Json → String
  | .null => "null"
  | .boolean true => "true"
  | .boolean false => "false"
  | .natural n => toString n
  | .negative n => "-" ++ toString n
  | .decimal d => decimalText d
  | .text s => quote s
  | .list _ => "[]"
  | .object _ => "\x7b\x7d"

mutual

/-- The text on one line. -/
def compact : Json → String
  | .list items => "[" ++ compactItems items ++ "]"
  | .object fields => "\x7b" ++ compactFields fields ++ "\x7d"
  | j => j.scalarText

/-- Items with commas between them. -/
def compactItems : List Json → String
  | [] => ""
  | [j] => j.compact
  | j :: rest => j.compact ++ "," ++ compactItems rest

/-- Fields with commas between them. -/
def compactFields : List (String × Json) → String
  | [] => ""
  | [(name, j)] => quote name ++ ":" ++ j.compact
  | (name, j) :: rest => quote name ++ ":" ++ j.compact ++ "," ++ compactFields rest

end

/-- A line end and the indent of a level. -/
def newline (level : Nat) : String := String.ofList ('\n' :: List.replicate (2 * level) ' ')

mutual

/-- The text with one item to a line, inside `level` lists and objects. -/
def prettyAt (level : Nat) : Json → String
  | .list [] => "[]"
  | .list (j :: rest) => "[" ++ prettyItems (level + 1) (j :: rest) ++ newline level ++ "]"
  | .object [] => "\x7b\x7d"
  | .object (f :: rest) => "\x7b" ++ prettyFields (level + 1) (f :: rest) ++ newline level ++ "\x7d"
  | j => j.scalarText

/-- Items on lines of their own. -/
def prettyItems (level : Nat) : List Json → String
  | [] => ""
  | [j] => newline level ++ j.prettyAt level
  | j :: rest => newline level ++ j.prettyAt level ++ "," ++ prettyItems level rest

/-- Fields on lines of their own. -/
def prettyFields (level : Nat) : List (String × Json) → String
  | [] => ""
  | [(name, j)] => newline level ++ quote name ++ ": " ++ j.prettyAt level
  | (name, j) :: rest =>
    newline level ++ quote name ++ ": " ++ j.prettyAt level ++ "," ++ prettyFields level rest

end

/-- The text with one item to a line. -/
def pretty (j : Json) : String := j.prettyAt 0

end Json
end Text
end CombatTrials
