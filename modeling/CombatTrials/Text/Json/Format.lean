import CombatTrials.Data.Format
import CombatTrials.Text.Json.Reader

/-!
# JSON as a format of typed data

Structures are objects; fields that the structure does not declare are passed over, and a list of
the fields in the order of their declaration is a structure too. A case of a sum type is an object
with the case as its only field, or just the name where the case has no contents. What is absent is
null.

There are two formats. `Json.format` is that of values. `Json.documentFormat` is that of texts: it
follows a text no deeper than `Json.depthLimit`, but holds what it passes over to nothing but the
grammar. Only a case that gives its name in a field of its own has to be kept whole until the name
is found, whatever fields it has. In a text, the fields of a case can be given as a list, which a
value does not allow.
-/

namespace CombatTrials
namespace Text
namespace Json

/-- A boolean. -/
def boolean? : Json → Option Bool
  | .boolean b => some b
  | _ => none

/-- An integer without a sign. -/
def natural? : Json → Option Nat
  | .natural n => some n
  | _ => none

/-- Any number, as the nearest double; too large a one is refused. -/
def real? (j : Json) : Option Float := do
  let x ← match j with
    | .natural n => some (Numeric.Decimal.toFloat ⟨false, n, 0⟩)
    | .negative n => some (Numeric.Decimal.toFloat ⟨true, n, 0⟩)
    | .decimal d => some d.toFloat
    | _ => none
  if x.isFinite then some x else none

/-- A string. -/
def text? : Json → Option String
  | .text s => some s
  | _ => none

/-! ## Values -/

/-- The items of a list. -/
def list? : Json → Option (List Json)
  | .list items => some items
  | _ => none

/-- Null is what is absent. -/
def optional? : Json → Option (Option Json)
  | .null => some none
  | j => some (some j)

/-- The fields of an object, if no declared one occurs twice. -/
def fieldsOf? {δ : Type} (declared : List String) (fields : List (String × δ)) :
    Option (List (String × δ)) :=
  if Data.declaredOnce declared fields then some fields else none

/-- The fields of a list, which are the declared ones in order, or at least so many of them. -/
def positionalFields? {δ : Type} (declared : List String) (least : Nat) (items : List δ) :
    Option (List (String × δ)) :=
  if least ≤ items.length && items.length ≤ declared.length then some (declared.zip items) else none

/-- The fields of a structure. -/
def members? (declared : List String) (least : Nat) : Json → Option (List (String × Json))
  | .object fields => fieldsOf? declared fields
  | .list items => positionalFields? declared least items
  | _ => none

/-- The fields of a case. -/
def caseFields? (declared : List String) : Json → Option (List (String × Json))
  | .object fields => fieldsOf? declared fields
  | _ => none

/-- A case of a sum type. -/
def variant? : Json → Option (String × Option Json)
  | .text name => some (name, none)
  | .object [(name, contents)] => some (name, some contents)
  | _ => none

/-- Whether a value is null. -/
def isNull : Json → Bool
  | .null => true
  | _ => false

/-- The one field of a name, if there is exactly one. -/
def onlyField? {δ : Type} (name : String) (fields : List (String × δ)) : Option δ :=
  match fields.filter (·.1 == name) with
  | [(_, d)] => some d
  | _ => none

/-- A case with its name in a field, or in front of a list. -/
def tagged? (tag : String) : Json → Option (String × Json)
  | .object fields =>
    match onlyField? tag fields with
    | some (.text name) => some (name, .object (fields.filter (·.1 != tag)))
    | _ => none
  | .list (.text name :: rest) => some (name, .list rest)
  | _ => none

/-- The shapes of typed data in values. -/
def format : Data.Format Json where
  height := height
  boolean? := boolean?
  natural? := natural?
  real? := real?
  text? := text?
  list? := list?
  optional? := optional?
  fields? _ declared least := members? declared least
  variant? := variant?
  sole? := some
  caseFields? := caseFields?
  isUnit := isNull
  tagged? := tagged?

/-! ## Texts -/

/-- Whether a number is not too large for a double. Other values are. -/
def isInRange : Json → Bool
  | .natural n => (real? (.natural n)).isSome
  | .negative n => (real? (.negative n)).isSome
  | .decimal d => (real? (.decimal d)).isSome
  | _ => true

namespace Term

mutual

/-- Whether a term can be kept whole where it may be nested so many levels deep. -/
def isWhole (room : Nat) : Term → Bool
  | .scalar value => value.isInRange
  | .broken => false
  | .list items => 0 < room && areWhole (room - 1) items
  | .object fields => 0 < room && fieldsAreWhole (room - 1) fields

/-- Whether items can be kept whole. -/
def areWhole (room : Nat) : List Term → Bool
  | [] => true
  | t :: rest => t.isWhole room && areWhole room rest

/-- Whether fields can be kept whole. -/
def fieldsAreWhole (room : Nat) : List (Option String × Term) → Bool
  | [] => true
  | (name, t) :: rest => name.isSome && t.isWhole room && fieldsAreWhole room rest

end

/-- The value of a term without parts. -/
def scalar? : Term → Option Json
  | .scalar value => some value
  | _ => none

end Term

/-- A term in a text, and how many levels of it may be followed. -/
structure Node where
  term : Term
  room : Nat

namespace Node

/-- A node without parts, read like a value. -/
def readScalar? {α : Type} (read : Json → Option α) (n : Node) : Option α :=
  n.term.scalar?.bind read

/-- The items of a list. -/
def list? : Node → Option (List Node)
  | ⟨.list items, room + 1⟩ => some (items.map (⟨·, room⟩))
  | _ => none

/-- The fields of an object. Their names have to be strings. -/
def object? : Node → Option (List (String × Node))
  | ⟨.object fields, room + 1⟩ => fields.mapM fun (name, t) => name.map (·, ⟨t, room⟩)
  | _ => none

/-- Null is what is absent. -/
def optional? (n : Node) : Option (Option Node) :=
  match n.term with
  | .scalar .null => some none
  | _ => some (some n)

/-- The fields of a structure. -/
def members? (declared : List String) (least : Nat) (n : Node) : Option (List (String × Node)) :=
  match n.list? with
  | some items => positionalFields? declared least items
  | none => do fieldsOf? declared (← n.object?)

/-- A case of a sum type. -/
def variant? (n : Node) : Option (String × Option Node) :=
  match n.term with
  | .scalar (.text name) => some (name, none)
  | _ => do
    match ← n.object? with
    | [(name, contents)] => some (name, some contents)
    | _ => none

/-- Whether a node is null. -/
def isNull (n : Node) : Bool := (n.readScalar? fun j => some j.isNull).getD false

/-- Whether a node can be kept whole. -/
def isWhole (n : Node) : Bool := n.term.isWhole n.room

/-- A case with its name in a field, or in front of a list. -/
def tagged? (tag : String) (n : Node) : Option (String × Node) :=
  match n.list? with
  | some (first :: rest) => do
    let name ← first.readScalar? Json.text?
    if rest.all isWhole then some (name, ⟨.list (rest.map (·.term)), n.room⟩) else none
  | some [] => none
  | none => do
    let fields ← n.object?
    let name ← (← onlyField? tag fields).readScalar? Json.text?
    let others := fields.filter (·.1 != tag)
    if others.all (·.2.isWhole) then
      some (name, ⟨.object (others.map fun (name, d) => (some name, d.term)), n.room⟩)
    else none

end Node

/-- The shapes of typed data in texts. -/
def documentFormat : Data.Format Node where
  height := Node.room
  boolean? := Node.readScalar? boolean?
  natural? := Node.readScalar? natural?
  real? := Node.readScalar? real?
  text? := Node.readScalar? text?
  list? := Node.list?
  optional? := Node.optional?
  fields? _ declared least := Node.members? declared least
  variant? := Node.variant?
  sole? := some
  caseFields? declared := Node.members? declared 0
  isUnit := Node.isNull
  tagged? := Node.tagged?

/-- How deep the typed data of a text may be nested. -/
def depthLimit : Nat := 127

/-- The typed data that a text denotes. -/
def readTyped? {α : Type} (read : Data.Format Node → Node → Option α) (s : String) : Option α := do
  read documentFormat ⟨← Term.read? s, depthLimit⟩

end Json
end Text
end CombatTrials
