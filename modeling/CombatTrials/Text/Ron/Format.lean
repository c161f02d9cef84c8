import CombatTrials.Data.Format
import CombatTrials.Text.Ron.Number
import CombatTrials.Text.Ron.Reader

/-!
# Object notation as a format of typed data

Structures are parentheses with named fields, perhaps after the name of the structure. A case of a
sum type is its name, followed by its contents in parentheses. What may be absent is `None` or
`Some(...)`, and a document can allow its contents without the `Some`.

Fields that a structure does not declare are passed over, but they have to be values by themselves
(`Datum.isPassable`). There, as nothing else says what they are, a number must be one of the known
kinds and the word `Some` must have its contents.

The notation bounds how many levels a reader has open at once. A `Node` is a datum together with the
levels that may still be opened for it. Brackets open a level and so does each item or field between
them, a case opens one, which its name and its contents share, and so do the parentheses of a single
value.
-/

namespace CombatTrials
namespace Text
namespace Ron

/-- The levels that brackets and what is between them open. -/
def bracketLevels {α : Type} (contents : List α) : Nat := if contents.isEmpty then 1 else 2

mutual

/-- Whether a datum is a value by itself, of at most so many levels. -/
def Datum.isPassable (implicitSome : Bool) (room : Nat) : Datum → Bool
  | .word w => !w.isSome
  | .number lexeme => isNumber lexeme.toList
  | .text _ => true
  | .char _ => true
  | .unit => true
  | .list items => bracketLevels items ≤ room && arePassable implicitSome (room - 2) items
  | .map entries =>
    bracketLevels entries ≤ room && entriesArePassable implicitSome (room - 2) entries
  | .bareSome isJoined d =>
    !isJoined && implicitSome && 1 ≤ room && d.isPassable implicitSome (room - 1)
  | .group (some ⟨"Some", false⟩) (.items [d]) => 1 ≤ room && d.isPassable implicitSome (room - 1)
  | .group (some ⟨"Some", false⟩) _ => false
  | .group _ (.items items) =>
    bracketLevels items ≤ room && arePassable implicitSome (room - 2) items
  | .group _ (.fields fields) =>
    bracketLevels fields ≤ room && fieldsArePassable implicitSome (room - 2) fields

/-- Whether items are values by themselves. -/
def arePassable (implicitSome : Bool) (room : Nat) : List Datum → Bool
  | [] => true
  | d :: rest => d.isPassable implicitSome room && arePassable implicitSome room rest

/-- Whether the keys and values of a map are values by themselves. -/
def entriesArePassable (implicitSome : Bool) (room : Nat) : List (Datum × Datum) → Bool
  | [] => true
  | (k, d) :: rest =>
    k.isPassable implicitSome room && d.isPassable implicitSome room &&
      entriesArePassable implicitSome room rest

/-- Whether the contents of fields are values by themselves. -/
def fieldsArePassable (implicitSome : Bool) (room : Nat) : List (String × Datum) → Bool
  | [] => true
  | (_, d) :: rest => d.isPassable implicitSome room && fieldsArePassable implicitSome room rest

end

/-! ## Optional values -/

/-- The letters of a word after `Some`, if it begins so. -/
def Word.afterSome? (w : Word) : Option (List Char) :=
  match w.isRaw, w.name.toList with
  | false, 'S' :: 'o' :: 'm' :: 'e' :: rest => some rest
  | _, _ => none

/-- The contents of an optional value whose `Some` may be missing and whose parentheses are missing.
The letters of `Some` count wherever a word begins with them. -/
def Datum.contents? : Datum → Option Datum
  | .bareSome _ d => some d
  | .word w =>
    match w.afterSome? with
    | none => some (.word w)
    | some [] => none
    | some (c :: rest) =>
      let name := String.ofList (c :: rest)
      some (if isWordStart c then .word ⟨name, false⟩ else .number name)
  | .group (some w) body =>
    match w.afterSome? with
    | none => some (.group (some w) body)
    | some [] => none
    | some (c :: rest) =>
      if isWordStart c then some (.group (some ⟨String.ofList (c :: rest), false⟩) body) else none
  | d => some d

/-! ## The format -/

/-- A datum, and how many levels may be opened for it. -/
structure Node where
  datum : Datum
  room : Nat

namespace Node

/-- A boolean. -/
def boolean? (n : Node) : Option Bool :=
  match n.datum with
  | .word ⟨"true", false⟩ => some true
  | .word ⟨"false", false⟩ => some false
  | _ => none

/-- An integer without a sign. -/
def natural? (n : Node) : Option Nat :=
  match n.datum with
  | .number lexeme => Ron.natural? lexeme.toList
  | _ => none

/-- A real; infinity and NaN are words when they have no sign. -/
def real? (n : Node) : Option Float :=
  match n.datum with
  | .number lexeme => Ron.real? lexeme.toList
  | .word ⟨"inf", false⟩ => some (1 / 0)
  | .word ⟨"NaN", false⟩ => some (0 / 0)
  | _ => none

/-- A string. -/
def text? (n : Node) : Option String :=
  match n.datum with
  | .text s => some s
  | _ => none

/-- The datum of a node's inside, some levels down. -/
def inside (n : Node) (levels : Nat) (d : Datum) : Option Node :=
  if levels ≤ n.room then some ⟨d, n.room - levels⟩ else none

/-- The items of a list. -/
def list? (n : Node) : Option (List Node) :=
  match n.datum with
  | .list items => if bracketLevels items ≤ n.room then items.mapM (n.inside 2) else none
  | _ => none

/-- A value that may be absent. -/
def optional? (implicitSome : Bool) (n : Node) : Option (Option Node) :=
  match n.datum with
  | .word ⟨"None", false⟩ => some none
  | .group (some ⟨"Some", false⟩) body =>
    match body with
    | .items [d] => do return some (← n.inside 1 d)
    | _ => none
  | d => if implicitSome then do return some (← n.inside 1 (← d.contents?)) else none

/-- The fields in a pair of parentheses; those that are not declared are passed over. -/
def fields? (implicitSome : Bool) (declared : List String) (n : Node) :
    Body → Option (List (String × Node))
  | .items [] => if 1 ≤ n.room then some [] else none
  | .items _ => none
  | .fields fields =>
    let others := fields.filter fun (name, _) => !declared.contains name
    if Data.declaredOnce declared fields && fieldsArePassable implicitSome (n.room - 2) others then
      fields.mapM fun (name, d) => do return (name, ← n.inside 2 d)
    else none

/-- The fields of a structure of the given name. -/
def members? (implicitSome : Bool) (typeName : String) (declared : List String) (n : Node) :
    Option (List (String × Node)) :=
  match n.datum with
  | .unit => n.fields? implicitSome declared (.items [])
  | .group none body => n.fields? implicitSome declared body
  | .group (some w) body => if w.name = typeName then n.fields? implicitSome declared body else none
  | _ => none

/-- A case of a sum type; its contents keep the parentheses. -/
def variant? (n : Node) : Option (String × Option Node) :=
  if n.room < 2 then none
  else
    match n.datum with
    | .word w => some (w.name, none)
    | .group (some w) body => some (w.name, n.inside 1 (.group none body))
    | _ => none

/-- The one value in the parentheses of a case. -/
def sole? (n : Node) : Option Node :=
  match n.datum with
  | .group none (.items [d]) => n.inside 1 d
  | _ => none

/-- The fields in the parentheses of a case. -/
def caseFields? (implicitSome : Bool) (declared : List String) (n : Node) :
    Option (List (String × Node)) :=
  match n.datum with
  | .group none body => n.fields? implicitSome declared body
  | _ => none

end Node

/-- The shapes of typed data in a document. A case never has its name in a field. -/
def format (implicitSome : Bool) : Data.Format Node where
  height := Node.room
  boolean? := Node.boolean?
  natural? := Node.natural?
  real? := Node.real?
  text? := Node.text?
  list? := Node.list?
  optional? := Node.optional? implicitSome
  fields? typeName declared _ := Node.members? implicitSome typeName declared
  variant? := Node.variant?
  sole? := Node.sole?
  caseFields? := Node.caseFields? implicitSome
  isUnit _ := false
  tagged? _ _ := none

/-- How many levels may be open at once. -/
def levelLimit : Nat := 128

/-- The typed data that a text denotes. -/
def read? {α : Type} (read : Data.Format Node → Node → Option α) (s : String) : Option α := do
  let document ← Document.read? s
  read (format document.implicitSome) ⟨document.value, levelLimit⟩

end Ron
end Text
end CombatTrials
