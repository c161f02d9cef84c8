import CombatTrials.Data.Ledger
import CombatTrials.Numeric.Layout
import CombatTrials.Script.Failure
import CombatTrials.Script.Tree

/-!
# Values

A value is a number, a boolean or an object supplied by whoever runs the script. Values never stand
for "nothing": a missing variable or attribute is a failure.

An object has an identity besides its contents, and two objects are the same value exactly when
their identities are (`Value.same`). Objects are plain data. In particular a function carries a
`code` of some type `κ` that says what it does; the meaning of codes belongs to the host that the
evaluator runs against, so scripts can pass functions around, store and compare them without this
module knowing any of them.
-/

namespace CombatTrials
namespace Script

/-- A callable supplied by the host. Without an arity it takes any number of arguments. -/
structure Native (κ : Type) where
  name : String
  arity : Option Nat
  code : κ
  deriving Repr

mutual

/-- What expressions evaluate to. -/
inductive Value (κ : Type) where
  | number (value : Float)
  | boolean (value : Bool)
  | object (identity : Nat) (body : Object κ)

/-- The contents of an object. -/
inductive Object (κ : Type) where
  /-- A bag of named attributes, and nothing else. -/
  | record (typeName : String) (attributes : List (String × Value κ))
  /-- A function of the host. -/
  | native (function : Native κ)
  /-- An object with exactly the given coercions and attributes. -/
  | custom (typeName : String) (number : Option Float) (boolean : Option Bool)
      (attributes : List (String × Value κ))

end

variable {κ : Type}

instance : Inhabited (Value κ) := ⟨.boolean false⟩

/-- The value of a constant. -/
def Literal.value : Literal → Value κ
  | .number n => .number n
  | .boolean b => .boolean b

namespace Object

/-- The name of an object's type, for messages. -/
def typeName : Object κ → String
  | .record name _ => name
  | .native _ => "function"
  | .custom name _ _ _ => name

/-- The attributes of an object, in ascending order of their names. -/
def attributes : Object κ → Data.Ledger String (Value κ)
  | .record _ attributes => attributes
  | .native _ => []
  | .custom _ _ _ attributes => attributes

end Object

namespace Value

/-- The name of a value's type, for messages. -/
def typeName : Value κ → String
  | .number _ => Primitive.number.name
  | .boolean _ => Primitive.boolean.name
  | .object _ body => body.typeName

/-- The number that a value is. Booleans do not coerce, and of objects only those made to. -/
def toNumber : Value κ → Except Failure Float
  | .number n => .ok n
  | .object _ (.custom _ (some n) _ _) => .ok n
  | v => .error (.mismatch .number v.typeName)

/-- The boolean that a value is. Numbers do not coerce, and of objects only those made to. -/
def toBoolean : Value κ → Except Failure Bool
  | .boolean b => .ok b
  | .object _ (.custom _ _ (some b) _) => .ok b
  | v => .error (.mismatch .boolean v.typeName)

/-- An attribute of a value; numbers and booleans have none. -/
def getAttribute (name : String) : Value κ → Except Failure (Value κ)
  | .object _ body =>
    match body.attributes.find? name with
    | some v => .ok v
    | none => .error (.noAttribute body.typeName name)
  | v => .error (.noAttribute v.typeName name)

/-- Whether two values are one: numbers and booleans by value, objects by identity, and never a
value of one kind and a value of another. -/
def same : Value κ → Value κ → Bool
  | .number a, .number b => a == b
  | .boolean a, .boolean b => a == b
  | .object i _, .object j _ => i == j
  | _, _ => false

/-- The numbers below this magnitude are written as integers when they are integral. -/
def exactIntegerLimit : Float := 9007199254740992.0

/-- The text of a number: an integer where it is one and exact, without a sign for zero, and else
its fewest digits without an exponent. -/
def numberText (n : Float) : String :=
  if n.floor == n && n.abs < exactIntegerLimit then toString n.toInt64.toInt
  else Numeric.Layout.plain.write n

/-- The text of a value in messages. Objects show their type alone. -/
def text : Value κ → String
  | .number n => numberText n
  | .boolean b => if b then "true" else "false"
  | .object _ body => s!"<{body.typeName}>"

end Value
end Script
end CombatTrials
