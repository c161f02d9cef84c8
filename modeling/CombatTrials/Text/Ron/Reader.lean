import CombatTrials.Text.Ron.Token

/-!
# Reading object notation

The tokens of a text are an optional list of extensions and one value. Whether parentheses hold
fields or items is settled by what stands first in them: a word and a colon begin a field. A comma
may follow the last item, field or entry.

`Document.ofTokens?` is the grammar, and `Document.read?` adds the tokens. Numbers are taken as they
stand, since which letters are one depends on what is read.
-/

namespace CombatTrials
namespace Text
namespace Ron

/-- Whether a token begins a value other than parentheses. -/
def Token.startsValue : Token → Bool
  | .word _ => true
  | .number _ => true
  | .text _ => true
  | .char _ => true
  | .mark c => c = '[' || c = '{'
  | .unit => false
  | .joinedSome => false

mutual

/-- The value at the front of a list of tokens, and the tokens after it. -/
def datum? : Nat → List Token → Option (Datum × List Token)
  | 0, _ => none
  | fuel + 1, ts =>
    match ts with
    | .number lexeme :: rest => some (.number lexeme, rest)
    | .text value :: rest => some (.text value, rest)
    | .char value :: rest => some (.char value, rest)
    | .word w :: .mark '(' :: rest =>
      if w.isValue then none
      else do
        let (body, rest) ← body? fuel rest
        return (.group (some w) body, rest)
    | .word w :: .unit :: rest =>
      if w.isValue then none else some (.group (some w) (.items []), rest)
    | .word w :: rest =>
      if w.isSome && rest.head?.any Token.startsValue then do
        let (d, rest) ← datum? fuel rest
        return (.bareSome false d, rest)
      else some (.word w, rest)
    | .joinedSome :: rest => do
      let (d, rest) ← datum? fuel rest
      return (.bareSome true d, rest)
    | .unit :: rest => some (.unit, rest)
    | .mark '(' :: rest => do
      let (body, rest) ← body? fuel rest
      return (.group none body, rest)
    | .mark '[' :: rest => do
      let (items, rest) ← items? ']' fuel rest
      return (.list items, rest)
    | .mark '{' :: rest => do
      let (entries, rest) ← entries? fuel rest
      return (.map entries, rest)
    | _ => none

/-- What stands after an opening parenthesis, up to the closing one. -/
def body? : Nat → List Token → Option (Body × List Token)
  | 0, _ => none
  | fuel + 1, ts =>
    match ts with
    | .word _ :: .mark ':' :: _ => do
      let (fields, rest) ← fields? fuel ts
      return (.fields fields, rest)
    | _ => do
      let (items, rest) ← items? ')' fuel ts
      return (.items items, rest)

/-- Items up to a closing mark. -/
def items? (close : Char) : Nat → List Token → Option (List Datum × List Token)
  | 0, _ => none
  | fuel + 1, ts =>
    if ts.head? == some (.mark close) then some ([], ts.tail)
    else
      match datum? fuel ts with
      | some (d, .mark ',' :: rest) => do
        let (items, rest) ← items? close fuel rest
        return (d :: items, rest)
      | some (d, rest) => if rest.head? == some (.mark close) then some ([d], rest.tail) else none
      | none => none

/-- Fields up to a closing parenthesis. -/
def fields? : Nat → List Token → Option (List (String × Datum) × List Token)
  | 0, _ => none
  | fuel + 1, ts =>
    match ts with
    | .mark ')' :: rest => some ([], rest)
    | .word w :: .mark ':' :: rest =>
      match datum? fuel rest with
      | some (d, .mark ',' :: rest) => do
        let (fields, rest) ← fields? fuel rest
        return ((w.name, d) :: fields, rest)
      | some (d, .mark ')' :: rest) => some ([(w.name, d)], rest)
      | _ => none
    | _ => none

/-- Entries up to a closing brace. -/
def entries? : Nat → List Token → Option (List (Datum × Datum) × List Token)
  | 0, _ => none
  | fuel + 1, ts =>
    match ts with
    | .mark '}' :: rest => some ([], rest)
    | _ =>
      match datum? fuel ts with
      | some (k, .mark ':' :: rest) =>
        match datum? fuel rest with
        | some (d, .mark ',' :: rest) => do
          let (entries, rest) ← entries? fuel rest
          return ((k, d) :: entries, rest)
        | some (d, .mark '}' :: rest) => some ([(k, d)], rest)
        | _ => none
      | _ => none

end

/-- The extensions that a text may ask for. Only the first has a use for the data read here. -/
def extensionNames : List String := ["implicit_some", "unwrap_newtypes", "unwrap_variant_newtypes"]

/-- Names of extensions up to the closing mark; a comma may follow the last one. -/
def extensions? : List Token → Option (List String × List Token)
  | .word w :: .mark ',' :: .mark ')' :: .mark ']' :: rest =>
    if extensionNames.contains w.name then some ([w.name], rest) else none
  | .word w :: .mark ')' :: .mark ']' :: rest =>
    if extensionNames.contains w.name then some ([w.name], rest) else none
  | .word w :: .mark ',' :: rest =>
    if extensionNames.contains w.name then do
      let (names, rest) ← extensions? rest
      return (w.name :: names, rest)
    else none
  | _ => none

/-- The extensions that a text begins with, and the tokens after them. -/
def attributes? : Nat → List Token → Option (List String × List Token)
  | fuel + 1, .mark '#' :: .mark '!' :: .mark '[' :: .word ⟨"enable", false⟩ :: .mark '(' :: rest =>
    do
    let (names, rest) ← extensions? rest
    let (more, rest) ← attributes? fuel rest
    return (names ++ more, rest)
  | _, ts => some ([], ts)

/-- The document that tokens make up. -/
def Document.ofTokens? (ts : List Token) : Option Document := do
  let (names, ts) ← attributes? ts.length ts
  match datum? (2 * ts.length + 2) ts with
  | some (value, []) => some ⟨names.contains "implicit_some", value⟩
  | _ => none

/-- The document that a text denotes. -/
def Document.read? (s : String) : Option Document := do Document.ofTokens? (← tokenize s)

end Ron
end Text
end CombatTrials
