import CombatTrials.Data.File
import CombatTrials.Script.Form
import CombatTrials.Stage.Ending

/-!
# Encounters

An `Encounter` describes a party, the boss it meets and the strategy it follows, as data files give
it. It can be unfit to be fought: without a party, with somebody who starts out defeated, or with
two members of one name. `Encounter.defect?` finds the first of these, in that order, and a
`Matchup` is an encounter without any.

The boss may share the name of a member; names only have to tell members apart.
-/

namespace CombatTrials
namespace Arena

open Data (Format FileProblem required defaulted)
open Text (Json)

/-- The strengths that a combatant starts with. -/
structure Fighter where
  name : String
  /-- Hit points at the start, and at most. -/
  hp : UInt32
  /-- The strength of a hit. -/
  attack : UInt32
  /-- What a hit on this fighter is reduced by. -/
  defense : UInt32
  deriving DecidableEq, Repr

/-- A party, its boss and its strategy. Without a strategy the party always attacks. -/
structure Encounter where
  name : String
  /-- In formation order. -/
  party : List Fighter
  boss : Fighter
  strategy : Option Script.Program

/-! ## Defects -/

/-- Why an encounter cannot be fought. -/
inductive Defect where
  | emptyParty
  /-- A fighter of this name starts without hit points. -/
  | nonPositiveHp (name : String)
  /-- A second member has this name. -/
  | duplicateMember (name : String)
  deriving DecidableEq, Repr

/-- A defect in words. -/
def Defect.message : Defect → String
  | .emptyParty => "party must contain at least one actor"
  | .nonPositiveHp name => s!"actor '{name}' must have positive hp"
  | .duplicateMember name => s!"duplicate actor name '{name}'"

/-- The first name that stands among `seen` or earlier in the list. -/
def firstRepeated? (seen : List String) : List String → Option String
  | [] => none
  | name :: rest => if name ∈ seen then some name else firstRepeated? (name :: seen) rest

namespace Encounter

/-- Everybody, the boss last. -/
def everybody (e : Encounter) : List Fighter := e.party ++ [e.boss]

/-- The first defect. -/
def defect? (e : Encounter) : Option Defect :=
  if e.party.isEmpty then some .emptyParty
  else
    match e.everybody.find? (fun f => f.hp == 0) with
    | some f => some (.nonPositiveHp f.name)
    | none => (firstRepeated? [] (e.party.map (·.name))).map .duplicateMember

end Encounter

/-- An encounter that can be fought. -/
structure Matchup where
  encounter : Encounter
  sound : encounter.defect? = none

/-- The matchup of an encounter, or what is wrong with it. -/
def Encounter.build (e : Encounter) : Except Defect Matchup :=
  match h : e.defect? with
  | some d => .error d
  | none => .ok ⟨e, h⟩

/-- Somebody fights the boss. -/
theorem Matchup.party_ne_nil (m : Matchup) : m.encounter.party ≠ [] := by
  intro h
  have s := m.sound
  simp [Encounter.defect?, h] at s

/-! ## Data files -/

/-- A fighter of a data file. -/
def Fighter.read? {δ : Type} (f : Format δ) (d : δ) : Option Fighter := do
  let fields ← f.fields? "ActorSpec" ["name", "hp", "attack", "defense"] 0 d
  let name ← required fields "name" f.text?
  let hp ← required fields "hp" f.word32?
  let attack ← required fields "attack" f.word32?
  return ⟨name, hp, attack, ← defaulted fields "defense" 0 f.word32?⟩

/-- An encounter of a data file. -/
def Encounter.read? {δ : Type} (f : Format δ) (d : δ) : Option Encounter := do
  let fields ← f.fields? "ArenaSpec" ["name", "party", "boss", "strategy"] 0 d
  let name ← required fields "name" f.text?
  let party ← required fields "party" (f.listOf? (Fighter.read? f))
  let boss ← required fields "boss" (Fighter.read? f)
  return ⟨name, party, boss,
    ← defaulted fields "strategy" none (f.optionalOf? (Script.Program.read? f))⟩

/-- A fighter as JSON. -/
def Fighter.toJson (f : Fighter) : Json :=
  .object [("name", .text f.name), ("hp", .natural f.hp.toNat), ("attack", .natural f.attack.toNat),
    ("defense", .natural f.defense.toNat)]

/-- An encounter as JSON. -/
def Encounter.toJson (number : Float → Json) (e : Encounter) : Json :=
  .object [("name", .text e.name), ("party", .list (e.party.map Fighter.toJson)),
    ("boss", e.boss.toJson),
    ("strategy", match e.strategy with
      | none => .null
      | some s => s.toJson number)]

/-! ## Faults -/

/-- Why there is no matchup: its data file yielded no encounter, or the encounter has a defect. -/
inductive Fault where
  | file (path : String) (problem : FileProblem)
  | defect (defect : Defect)
  deriving DecidableEq, Repr

/-- A fault in words. -/
def Fault.message : Fault → String
  | .file path .missing => s!"Loadout file not found: {path}"
  | .file path .unreadable => s!"Failed to read loadout file: {path}"
  | .file path .malformed => s!"Failed to parse loadout: {path}"
  | .defect d => d.message

end Arena
end CombatTrials
