import CombatTrials.Text.Json.Term

/-!
# Reading JSON

A text is cut into tokens, and the tokens are read as one term with nothing after it. The grammar is
taken strictly: no comments, no trailing commas, no leading zeros and no control characters inside
strings. An escape of half a surrogate pair that does not stand next to its other half breaks its
string, and only that.

`Term.read?` is the term of a text, of any nesting, and `Json.read?` the value that it denotes.
-/

namespace CombatTrials
namespace Text
namespace Json

/-- The tokens of JSON. -/
inductive Token where
  | openList
  | closeList
  | openObject
  | closeObject
  | comma
  | colon
  | atom (value : Json)
  /-- A string with half of a surrogate pair in it. -/
  | broken

/-- Blanks between tokens. -/
def isBlank (c : Char) : Bool := c = ' ' || c = '\n' || c = '\t' || c = '\r'

/-- The value of a hexadecimal digit. -/
def hexDigit? (c : Char) : Option Nat :=
  if '0' ≤ c && c ≤ '9' then some (c.toNat - '0'.toNat)
  else if 'a' ≤ c && c ≤ 'f' then some (c.toNat - 'a'.toNat + 10)
  else if 'A' ≤ c && c ≤ 'F' then some (c.toNat - 'A'.toNat + 10)
  else none

/-- The code unit of four hexadecimal digits. -/
def hexUnit? (a b c d : Char) : Option Nat := do
  let a ← hexDigit? a
  let b ← hexDigit? b
  let c ← hexDigit? c
  let d ← hexDigit? d
  return ((a * 16 + b) * 16 + c) * 16 + d

/-- The character that a letter after a backslash stands for. -/
def escaped? : Char → Option Char
  | '"' => some '"'
  | '\\' => some '\\'
  | '/' => some '/'
  | 'b' => some '\x08'
  | 'f' => some '\x0c'
  | 'n' => some '\n'
  | 'r' => some '\r'
  | 't' => some '\t'
  | _ => none

/-- The character of a surrogate pair. -/
def surrogatePair? (high low : Nat) : Option Char :=
  if 0xD800 ≤ high && high ≤ 0xDBFF && 0xDC00 ≤ low && low ≤ 0xDFFF then
    some (Char.ofNat (0x10000 + (high - 0xD800) * 0x400 + (low - 0xDC00)))
  else none

/-- Adds a character to a string, unless the string or the character is missing. -/
def addChar (c : Option Char) (done : Option (List Char)) : Option (List Char) := do
  return (← c) :: (← done)

/-- The rest of a string after its opening quote, and what follows the closing quote. The string is
in reverse, and missing if it is broken. -/
def stringBody (done : Option (List Char)) : List Char → Option (Option (List Char) × List Char)
  | '"' :: rest => some (done, rest)
  | '\\' :: 'u' :: a :: b :: c :: d :: rest =>
    match hexUnit? a b c d with
    | none => none
    | some unit =>
      if 0xD800 ≤ unit && unit ≤ 0xDFFF then
        match rest with
        | '\\' :: 'u' :: e :: f :: g :: h :: rest =>
          match hexUnit? e f g h with
          | none => none
          | some low => stringBody (addChar (surrogatePair? unit low) done) rest
        | rest => stringBody none rest
      else stringBody (addChar (some (Char.ofNat unit)) done) rest
  | '\\' :: c :: rest =>
    match escaped? c with
    | none => none
    | some char => stringBody (addChar (some char) done) rest
  | c :: rest => if c.toNat < 0x20 then none else stringBody (addChar (some c) done) rest
  | [] => none

/-- Characters that can stand in a number. -/
def isNumberChar (c : Char) : Bool :=
  c.isDigit || c = '-' || c = '+' || c = '.' || c = 'e' || c = 'E'

/-- The exponent of a number: nothing, or an `e`, perhaps a sign, and digits. -/
def exponent? : List Char → Option (Option Int)
  | [] => some none
  | c :: rest =>
    if c ≠ 'e' ∧ c ≠ 'E' then none
    else
      let (sign, digits) : Int × List Char := match rest with
        | '-' :: digits => (-1, digits)
        | '+' :: digits => (1, digits)
        | digits => (1, digits)
      if digits.isEmpty || !digits.all Char.isDigit then none
      else some (some (sign * Numeric.ofDigits digits))

/-- The value of a number's characters. -/
def number? (cs : List Char) : Option Json :=
  let (minus, unsigned) := match cs with
    | '-' :: rest => (true, rest)
    | rest => (false, rest)
  let whole := unsigned.takeWhile Char.isDigit
  let rest := unsigned.drop whole.length
  if whole.isEmpty || (whole.length > 1 && whole.head? == some '0') then none
  else match rest with
    | [] =>
      let n := Numeric.ofDigits whole
      some (if minus then .negative n else .natural n)
    | '.' :: rest =>
      let places := rest.takeWhile Char.isDigit
      if places.isEmpty then none
      else do
        let e ← exponent? (rest.drop places.length)
        return .decimal ⟨minus, Numeric.ofDigits (whole ++ places), e.getD 0 - places.length⟩
    | rest => do
      let e ← exponent? rest
      return .decimal ⟨minus, Numeric.ofDigits whole, e.getD 0⟩

/-- The value of a bare word. -/
def word? (cs : List Char) : Option Json :=
  if cs = ['n', 'u', 'l', 'l'] then some .null
  else if cs = ['t', 'r', 'u', 'e'] then some (.boolean true)
  else if cs = ['f', 'a', 'l', 's', 'e'] then some (.boolean false)
  else none

/-- The token that begins with a character, and what follows it. -/
def nextToken (c : Char) (rest : List Char) : Option (Token × List Char) :=
  if c = '[' then some (.openList, rest)
  else if c = ']' then some (.closeList, rest)
  else if c = '{' then some (.openObject, rest)
  else if c = '}' then some (.closeObject, rest)
  else if c = ',' then some (.comma, rest)
  else if c = ':' then some (.colon, rest)
  else if c = '"' then do
    let (string, rest) ← stringBody (some []) rest
    match string with
    | some reversed => return (.atom (.text (String.ofList reversed.reverse)), rest)
    | none => return (.broken, rest)
  else if isNumberChar c then do
    let tail := rest.takeWhile isNumberChar
    let value ← number? (c :: tail)
    return (.atom value, rest.drop tail.length)
  else do
    let tail := rest.takeWhile Char.isAlpha
    let value ← word? (c :: tail)
    return (.atom value, rest.drop tail.length)

/-- The tokens of a text, at most `fuel` of them and of the blanks between them. -/
def tokens (done : List Token) : Nat → List Char → Option (List Token)
  | _, [] => some done.reverse
  | 0, _ => none
  | fuel + 1, c :: rest =>
    if isBlank c then tokens done fuel rest
    else
      match nextToken c rest with
      | none => none
      | some (token, rest) => tokens (token :: done) fuel rest

/-- The name of a field, missing if it is broken. -/
def fieldName? : Token → Option (Option String)
  | .atom (.text name) => some (some name)
  | .broken => some none
  | _ => none

namespace Term

mutual

/-- The term at the front of a list of tokens, and the tokens after it. -/
def next? : Nat → List Token → Option (Term × List Token)
  | 0, _ => none
  | fuel + 1, ts =>
    match ts with
    | .atom value :: rest => some (.scalar value, rest)
    | .broken :: rest => some (.broken, rest)
    | .openList :: .closeList :: rest => some (.list [], rest)
    | .openList :: rest => do
      let (items, rest) ← items? fuel rest
      return (.list items, rest)
    | .openObject :: .closeObject :: rest => some (.object [], rest)
    | .openObject :: rest => do
      let (fields, rest) ← fields? fuel rest
      return (.object fields, rest)
    | _ => none

/-- One item or more, up to the end of the list. -/
def items? : Nat → List Token → Option (List Term × List Token)
  | 0, _ => none
  | fuel + 1, ts =>
    match next? fuel ts with
    | some (t, .comma :: rest) => do
      let (items, rest) ← items? fuel rest
      return (t :: items, rest)
    | some (t, .closeList :: rest) => some ([t], rest)
    | _ => none

/-- One field or more, up to the end of the object. -/
def fields? : Nat → List Token → Option (List (Option String × Term) × List Token)
  | 0, _ => none
  | fuel + 1, ts =>
    match ts with
    | first :: .colon :: rest => do
      let name ← fieldName? first
      match next? fuel rest with
      | some (t, .comma :: rest) =>
        let (fields, rest) ← fields? fuel rest
        return ((name, t) :: fields, rest)
      | some (t, .closeObject :: rest) => some ([(name, t)], rest)
      | _ => none
    | _ => none

end

/-- The term of a text. -/
def read? (s : String) : Option Term := do
  let cs := s.toList
  let ts ← tokens [] cs.length cs
  match next? (ts.length + 1) ts with
  | some (t, []) => some t
  | _ => none

end Term

/-- The value that a text denotes. -/
def read? (s : String) : Option Json := do (← Term.read? s).value?

end Json
end Text
end CombatTrials
