/-!
# Object notation

The notation that loadouts, scripts and settings are written in. A `Datum` is a value as it stands
in a text: structures are groups in parentheses with named fields, cases of a sum type are words
that may be followed by a group, and a number keeps its letters, because the integers and the reals
of the notation are written differently.

What a datum denotes depends on what is read, so a datum keeps what one reader sees and another does
not: whether a word was marked as a name, whether parentheses touch, and a `Some` without
parentheses.
-/

namespace CombatTrials
namespace Text
namespace Ron

/-- A word of a text. -/
structure Word where
  name : String
  /-- Whether the word was written after `r#`, and so can only be a name. -/
  isRaw : Bool := false
  deriving DecidableEq, Repr

namespace Word

/-- Whether a word stands for a value by itself, so that it never names a group. -/
def isValue (w : Word) : Bool := !w.isRaw && ["true", "false", "None", "inf", "NaN"].contains w.name

/-- Whether a word says that an optional value is there. -/
def isSome (w : Word) : Bool := !w.isRaw && w.name == "Some"

end Word

mutual

/-- A value of the notation. -/
inductive Datum where
  /-- A bare word: a case without contents, or one of the words that stand for a value. -/
  | word (word : Word)
  /-- A number, by its letters. -/
  | number (lexeme : String)
  | text (value : String)
  | char (value : Char)
  | list (items : List Datum)
  | map (entries : List (Datum × Datum))
  /-- An opening parenthesis that the closing one follows at once, without a word before it. -/
  | unit
  /-- Parentheses, perhaps after a word. -/
  | group (name : Option Word) (body : Body)
  /-- The word `Some` and a value that is not in parentheses. Joined, they have no blank between
  them and the value begins with `r#`. -/
  | bareSome (isJoined : Bool) (value : Datum)

/-- What stands between parentheses. -/
inductive Body where
  | items (items : List Datum)
  /-- One field or more. -/
  | fields (fields : List (String × Datum))

end

instance : Inhabited Datum := ⟨.unit⟩

/-- A text of the notation: a value, and whether the text lets the contents of an optional value
stand without the word `Some`. -/
structure Document where
  implicitSome : Bool
  value : Datum
  deriving Inhabited

end Ron
end Text
end CombatTrials
