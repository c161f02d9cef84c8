/-!
# How a text format presents data

Typed data is read from more than one text format, and the formats present the same shapes
differently: a case of a sum type is a named group in one and an object with a single field in
another. A `Format` says how a node `δ` of one format shows each shape, and the readers of typed
data are written once over it.

Every operation answers `none` where the node does not have the shape. Why a text was refused is
nowhere asked for. Fields that a structure does not declare are passed over, but a format may hold
even those to its rules, so `fields?` is told which are declared.
-/

namespace CombatTrials
namespace Data

/-- The shapes that nodes of type `δ` present. -/
structure Format (δ : Type) where
  /-- A bound on how deep readers follow the nesting of a node. -/
  height : δ → Nat
  boolean? : δ → Option Bool
  /-- An integer without a sign. -/
  natural? : δ → Option Nat
  real? : δ → Option Float
  text? : δ → Option String
  list? : δ → Option (List δ)
  /-- A value that may be absent. -/
  optional? : δ → Option (Option δ)
  /-- The fields of a structure: its name, the fields it declares in order, and how many of them a
  form without field names has to give. No declared field occurs twice in the answer. -/
  fields? : String → List String → Nat → δ → Option (List (String × δ))
  /-- The name of a case of a sum type, and its contents if it has any. -/
  variant? : δ → Option (String × Option δ)
  /-- The one value that the contents of a case consist of. -/
  sole? : δ → Option δ
  /-- The fields that the contents of a case consist of, of those that the case declares in
  order. -/
  caseFields? : List String → δ → Option (List (String × δ))
  /-- Whether contents are those of a case without any. -/
  isUnit : δ → Bool
  /-- The name of a case that stands in a field of its own, and what is left without that field. -/
  tagged? : String → δ → Option (String × δ)

namespace Format

variable {δ α : Type}

/-- An integer of thirty-two bits. -/
def word32? (f : Format δ) (d : δ) : Option UInt32 := do
  let n ← f.natural? d
  if n < UInt32.size then some (UInt32.ofNat n) else none

/-- An integer of sixty-four bits. -/
def word64? (f : Format δ) (d : δ) : Option UInt64 := do
  let n ← f.natural? d
  if n < UInt64.size then some (UInt64.ofNat n) else none

/-- A list whose items are read alike. -/
def listOf? (f : Format δ) (read : δ → Option α) (d : δ) : Option (List α) := do
  (← f.list? d).mapM read

/-- A value that may be absent. -/
def optionalOf? (f : Format δ) (read : δ → Option α) (d : δ) : Option (Option α) := do
  match ← f.optional? d with
  | none => return none
  | some d => return some (← read d)

/-- The contents of a case that has one value. -/
def soleOf? (f : Format δ) (read : δ → Option α) (contents : Option δ) : Option α := do
  read (← f.sole? (← contents))

/-- The fields of a case that has named ones. -/
def members? (f : Format δ) (declared : List String) (contents : Option δ) :
    Option (List (String × δ)) := do
  f.caseFields? declared (← contents)

/-- A case without contents. -/
def plainVariant? (f : Format δ) (d : δ) : Option String := do
  let (name, contents) ← f.variant? d
  match contents with
  | none => some name
  | some c => if f.isUnit c then some name else none

end Format

/-- A field that has to be there. -/
def required {δ α : Type} (fields : List (String × δ)) (name : String) (read : δ → Option α) :
    Option α :=
  match fields.lookup name with
  | some d => read d
  | none => none

/-- A field with a value of its own when it is left out. -/
def defaulted {δ α : Type} (fields : List (String × δ)) (name : String) (value : α)
    (read : δ → Option α) : Option α :=
  match fields.lookup name with
  | some d => read d
  | none => some value

/-- Whether no declared field occurs twice. -/
def declaredOnce {δ : Type} (declared : List String) : List (String × δ) → Bool
  | [] => true
  | (name, _) :: rest =>
    !(declared.contains name && rest.any (fun field => field.1 == name)) &&
      declaredOnce declared rest

end Data
end CombatTrials
