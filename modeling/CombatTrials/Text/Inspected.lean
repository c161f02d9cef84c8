import CombatTrials.Text.Hidden

/-!
# Strings shown for inspection

A string is shown between double quotes in a form that leaves no doubt what is in it: the quote, the
backslash and the common control characters have short escapes, and a character that cannot be seen
by itself is shown by its code point.
-/

namespace CombatTrials
namespace Text
namespace Inspected

/-- A character by its code point, in lower-case hexadecimal digits. -/
def codePoint (c : Char) : List Char :=
  ['\\', 'u', '{'] ++ Nat.toDigits 16 c.toNat ++ ['}']

/-- A character as it is shown between double quotes. -/
def showChar (c : Char) : List Char :=
  if c = '"' then ['\\', '"']
  else if c = '\\' then ['\\', '\\']
  else if c = '\n' then ['\\', 'n']
  else if c = '\r' then ['\\', 'r']
  else if c = '\t' then ['\\', 't']
  else if c = '\x00' then ['\\', '0']
  else if Hidden.isHidden c then codePoint c
  else [c]

/-- A string as it is shown. -/
def quote (s : String) : String := String.ofList ('"' :: (s.toList.flatMap showChar ++ ['"']))

end Inspected
end Text
end CombatTrials
