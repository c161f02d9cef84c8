import CombatTrials.Text.Json.Reader
import CombatTrials.Text.Ron

/-!
# The tokens of object notation

A text is cut into words, numbers, strings, characters and marks. Between tokens stand blanks,
comments to the end of a line and comments in brackets, which nest. A word is as long as possible
and may not run into a sign or a point; a number takes every letter, digit, sign and point that
follows, so that a badly written one is refused as a whole.
-/

namespace CombatTrials
namespace Text
namespace Ron

/-- The tokens of the notation. -/
inductive Token where
  /-- One of the marks `( ) [ ] { } : , # !`. -/
  | mark (c : Char)
  /-- An opening parenthesis that the closing one follows at once. -/
  | unit
  | word (word : Word)
  /-- The letters of `Some` with a word written after `r#` right behind them. -/
  | joinedSome
  | number (lexeme : String)
  | text (value : String)
  | char (value : Char)
  deriving DecidableEq, Repr

/-- Blanks. -/
def isBlank (c : Char) : Bool := c = ' ' || c = '\n' || c = '\t' || c = '\r'

/-- Marks that are tokens by themselves. -/
def isMark (c : Char) : Bool :=
  ['(', ')', '[', ']', '{', '}', ':', ',', '#', '!'].contains c

/-- Characters that a word begins with; words are made of the letters without accents. -/
def isWordStart (c : Char) : Bool := c.isAlpha || c = '_'

/-- Characters of a word. -/
def isWordChar (c : Char) : Bool := c.isAlphanum || c = '_'

/-- Characters of a number, and of a word written after `r#`. -/
def isRawChar (c : Char) : Bool := isWordChar c || c = '.' || c = '+' || c = '-'

/-- Characters that a number begins with. -/
def isNumberStart (c : Char) : Bool := c.isDigit || c = '+' || c = '-' || c = '.'

/-- The text after a comment in brackets that is open `depth + 1` times. -/
def skipComment : Nat → List Char → Option (List Char)
  | depth, '/' :: '*' :: rest => skipComment (depth + 1) rest
  | 0, '*' :: '/' :: rest => some rest
  | depth + 1, '*' :: '/' :: rest => skipComment depth rest
  | depth, _ :: rest => skipComment depth rest
  | _, [] => none

/-- The code point of one to six hexadecimal digits up to a closing brace, and what follows it. -/
def codePoint? (digits : Nat) (n : Nat) : List Char → Option (Char × List Char)
  | '}' :: rest =>
    if digits = 0 then none
    else if n.isValidChar then some (Char.ofNat n, rest) else none
  | c :: rest =>
    if digits = 6 then none
    else match Json.hexDigit? c with
      | some d => codePoint? (digits + 1) (16 * n + d) rest
      | none => none
  | [] => none

/-- The character that stands after a backslash, and what follows it. -/
def escape? : List Char → Option (Char × List Char)
  | '\'' :: rest => some ('\'', rest)
  | '"' :: rest => some ('"', rest)
  | '\\' :: rest => some ('\\', rest)
  | 'n' :: rest => some ('\n', rest)
  | 'r' :: rest => some ('\r', rest)
  | 't' :: rest => some ('\t', rest)
  | '0' :: rest => some ('\x00', rest)
  | 'x' :: a :: b :: rest => do
    let a ← Json.hexDigit? a
    let b ← Json.hexDigit? b
    return (Char.ofNat (16 * a + b), rest)
  | 'u' :: '{' :: rest => codePoint? 0 0 rest
  | _ => none

/-- The rest of a string after its opening quote, in reverse, and what follows the closing quote. -/
def stringBody (done : List Char) : Nat → List Char → Option (List Char × List Char)
  | 0, _ => none
  | _ + 1, '"' :: rest => some (done, rest)
  | fuel + 1, '\\' :: rest =>
    match escape? rest with
    | some (c, rest) => stringBody (c :: done) fuel rest
    | none => none
  | fuel + 1, c :: rest => stringBody (c :: done) fuel rest
  | _ + 1, [] => none

/-- The rest of a raw string after its opening quote, in reverse, and what follows its closing quote
and as many `#` as it was opened with. -/
def rawBody (hashes : Nat) (done : List Char) : List Char → Option (List Char × List Char)
  | [] => none
  | c :: rest =>
    if c = '"' && (rest.take hashes == List.replicate hashes '#') then some (done, rest.drop hashes)
    else rawBody hashes (c :: done) rest

/-- A character between single quotes, after the opening one. -/
def charBody : List Char → Option (Char × List Char)
  | '\\' :: rest =>
    match escape? rest with
    | some (c, '\'' :: rest) => some (c, rest)
    | _ => none
  | c :: '\'' :: rest => if c = '\'' then none else some (c, rest)
  | _ => none

/-- A word that may not run into a sign or a point, unless it is `Some`, whose contents may begin
with one. -/
def wordToken (cs : List Char) : Option (Token × List Char) :=
  match cs with
  | 'S' :: 'o' :: 'm' :: 'e' :: 'r' :: '#' :: rest => some (.joinedSome, 'r' :: '#' :: rest)
  | _ =>
    let name := cs.takeWhile isWordChar
    let rest := cs.drop name.length
    let word : Word := ⟨String.ofList name, false⟩
    if !word.isSome && rest.head?.any isRawChar then none else some (.word word, rest)

/-- A raw string, a word written after `r#`, or a word that begins with `r`; the text after that
`r`. -/
def afterR (rest : List Char) : Option (Token × List Char) :=
  let hashes := (rest.takeWhile (· = '#')).length
  match rest.drop hashes with
  | '"' :: body => do
    let (reversed, rest) ← rawBody hashes [] body
    return (.text (String.ofList reversed.reverse), rest)
  | after =>
    if hashes = 0 then wordToken ('r' :: rest)
    else
      let name := after.takeWhile isRawChar
      if hashes = 1 && !name.isEmpty then
        some (.word ⟨String.ofList name, true⟩, after.drop name.length)
      else none

/-- The token that begins with a character, and what follows it. -/
def nextToken (c : Char) (rest : List Char) : Option (Token × List Char) :=
  if c = '(' && rest.head? == some ')' then some (.unit, rest.tail)
  else if isMark c then some (.mark c, rest)
  else if c = '"' then do
    let (reversed, rest) ← stringBody [] (rest.length + 1) rest
    return (.text (String.ofList reversed.reverse), rest)
  else if c = '\'' then do
    let (value, rest) ← charBody rest
    return (.char value, rest)
  else if c = 'r' then afterR rest
  else if isWordStart c then wordToken (c :: rest)
  else if isNumberStart c then
    let tail := rest.takeWhile isRawChar
    some (.number (String.ofList (c :: tail)), rest.drop tail.length)
  else none

/-- The tokens of a text, at most `fuel` of them and of the blanks and comments between them. -/
def tokens (done : List Token) : Nat → List Char → Option (List Token)
  | _, [] => some done.reverse
  | 0, _ => none
  | fuel + 1, '/' :: rest =>
    match rest with
    | '/' :: rest => tokens done fuel (rest.dropWhile (· ≠ '\n'))
    | '*' :: rest =>
      match skipComment 0 rest with
      | some rest => tokens done fuel rest
      | none => none
    | _ => none
  | fuel + 1, c :: rest =>
    if isBlank c then tokens done fuel rest
    else
      match nextToken c rest with
      | some (token, rest) => tokens (token :: done) fuel rest
      | none => none

/-- The tokens of a text. -/
def tokenize (s : String) : Option (List Token) :=
  let cs := s.toList
  tokens [] cs.length cs

end Ron
end Text
end CombatTrials
