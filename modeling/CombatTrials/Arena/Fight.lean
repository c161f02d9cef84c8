import CombatTrials.Arena.Encounter
import CombatTrials.Numeric.Nearest
import CombatTrials.Chance.Dice

/-!
# The rules of a fight

A `Fight` is the state of an encounter that is being fought: the party in formation order, the boss,
and the dice that are thrown next. The rules are three actions, each a total function on fights.
Every action answers what happened as a list of `Event`s besides the fight after it; whether anybody
writes the events down does not concern the rules.

* `Fight.partyAttack`: the living members hit the boss in formation order, up to the hit that fells
  it.
* `Fight.partyHeal`: the weakest living member gets a fifth of its greatest hit points back.
* `Fight.bossAttack`: the boss hits one living member, each with the same chance.

Whoever is down stays as it is: it does not act, is not healed and is not hit. A hit is never weaker
than one point, so hit points may fall below zero, and events show them as zero then.

Actions take the dice as they are and hand on what is left of them. Nobody throws who has nothing to
decide.
-/

namespace CombatTrials
namespace Arena

open Chance (Dice)

/-! ## Combatants -/

/-- A fighter in a fight. -/
structure Combatant where
  name : String
  hp : Int
  maxHp : Nat
  attack : Nat
  defense : Nat
  deriving DecidableEq, Repr

namespace Combatant

/-- A fighter at the start of a fight. -/
def ofFighter (f : Fighter) : Combatant where
  name := f.name
  hp := f.hp.toNat
  maxHp := f.hp.toNat
  attack := f.attack.toNat
  defense := f.defense.toNat

/-- Whether a combatant stands. -/
def isAlive (c : Combatant) : Bool := 0 < c.hp

/-- The hit points that are shown: never less than zero. -/
def hpLeft (c : Combatant) : Nat := c.hp.toNat

/-- The share of the greatest hit points that is left. -/
def hpRatio (c : Combatant) : Float := Float.ofNat c.hpLeft / Float.ofNat c.maxHp

/-- How much weaker than others a combatant is: smaller ratios of hit points first. -/
def weakness (c : Combatant) : Int := Numeric.orderKey c.hpRatio

/-- A combatant that was hit. -/
def hurt (c : Combatant) (damage : Int) : Combatant := { c with hp := c.hp - damage }

/-- How many hit points a heal gives back: a fifth of the greatest number, as far as they are
missing. -/
def healing (c : Combatant) : Int :=
  min (Numeric.nearestInt (Float.ofNat c.maxHp * 0.2)) (c.maxHp - c.hp)

/-- A combatant that was healed. -/
def heal (c : Combatant) : Combatant := { c with hp := c.hp + c.healing }

end Combatant

/-! ## Events -/

/-- What can happen in a play. -/
inductive Event where
  /-- A play of a stage begins with a party of some size. -/
  | opening (stage : String) (seats : Nat)
  | initializerFailed (failure : Script.Failure)
  | turn (number : UInt32)
  | strategyFailed (failure : Script.Failure)
  | excluded
  /-- A hit for some damage; `left` is what the victim has left. -/
  | hit (attacker victim : String) (damage : Int) (left : Nat)
  /-- A heal by some amount up to `hp` hit points. -/
  | healed (name : String) (amount hp : Int)
  | guarded
  | fell (name : String)
  | bossDefeated (name : String) (turn : UInt32)
  | partyWiped (turn : UInt32)
  | outOfTurns (limit : UInt32)
  deriving DecidableEq, Repr

/-- An event in words. -/
def Event.text : Event → String
  | .opening stage seats => s!"Stage: {stage} ({seats} in party)"
  | .initializerFailed failure => s!"Strategy initialization failed: {failure.message}"
  | .turn number => s!"Turn {number}"
  | .strategyFailed failure => s!"  strategy failed: {failure.message}"
  | .excluded => "  run excluded by strategy"
  | .hit attacker victim damage left => s!"  {attacker} hits {victim} for {damage} ({left} hp left)"
  | .healed name amount hp => s!"  {name} is healed for {amount} ({hp} hp)"
  | .guarded => "  party guards"
  | .fell name => s!"  {name} falls"
  | .bossDefeated name number => s!"{name} is defeated on turn {number}"
  | .partyWiped number => s!"Party wiped out on turn {number}"
  | .outOfTurns limit => s!"Out of turns after {limit}"

/-- Events as the lines of a log. -/
def logText (events : List Event) : String := String.join (events.map fun e => e.text ++ "\n")

/-! ## Fights -/

/-- The state of a fight. -/
structure Fight (ρ : Type) where
  /-- In formation order. -/
  party : List Combatant
  boss : Combatant
  dice : ρ
  /-- Somebody fights the boss, standing or down. -/
  staffed : party ≠ []

variable {ρ : Type}

namespace Fight

/-- The start of a fight. -/
def start (m : Matchup) (dice : ρ) : Fight ρ where
  party := m.encounter.party.map Combatant.ofFighter
  boss := Combatant.ofFighter m.encounter.boss
  dice := dice
  staffed := by simpa using m.party_ne_nil

/-- A place in the formation. -/
abbrev Seat (fight : Fight ρ) := Fin fight.party.length

/-- The member at a place. -/
def member (fight : Fight ρ) (seat : fight.Seat) : Combatant := fight.party[seat]

/-- The places of the members that stand, in formation order. -/
def standing (fight : Fight ρ) : List fight.Seat :=
  (List.finRange fight.party.length).filter fun seat => (fight.member seat).isAlive

/-- Whether a member stands. -/
def partyAlive (fight : Fight ρ) : Bool := fight.party.any Combatant.isAlive

/-- The first place. -/
def firstSeat (fight : Fight ρ) : fight.Seat := ⟨0, List.length_pos_iff.2 fight.staffed⟩

/-- Puts a changed member into its place. -/
def replace (fight : Fight ρ) (seat : fight.Seat) (c : Combatant) : Fight ρ where
  party := fight.party.set seat c
  boss := fight.boss
  dice := fight.dice
  staffed := by simpa using fight.staffed

/-- The first of the places with the least key. -/
def leastBy {α : Type} (key : α → Int) : α → List α → α
  | best, [] => best
  | best, a :: rest => leastBy key (if key a < key best then a else best) rest

/-- The place of the weakest member that stands, the first of them in formation order. -/
def weakest? (fight : Fight ρ) : Option fight.Seat :=
  match fight.standing with
  | [] => none
  | seat :: rest => some (leastBy (fun s => (fight.member s).weakness) seat rest)

/-- The place of the member that leads: the first that stands, or the first of all when none
does. -/
def leader (fight : Fight ρ) : fight.Seat := fight.standing.head?.getD fight.firstSeat

/-! ## Actions -/

/-- The weakest member is healed. -/
def partyHeal (fight : Fight ρ) : Fight ρ × List Event :=
  match fight.weakest? with
  | none => (fight, [])
  | some seat =>
    let target := fight.member seat
    let healed := target.heal
    (fight.replace seat healed, [.healed target.name target.healing healed.hp])

end Fight

variable [Dice ρ]

/-- The strength of a hit whose strength swings by a factor. -/
def strength (attack : Nat) (factor : Float) : Int :=
  Numeric.nearestInt (Float.ofNat attack * factor)

/-- The damage of a hit, at least one point. -/
def rollDamage (attack defense : Nat) (dice : ρ) : Int × ρ :=
  let (factor, dice) := Dice.swing dice
  (max 1 (strength attack factor - defense), dice)

namespace Fight

/-- The hit of a member on the boss, if both of them stand. -/
def memberHits (fight : Fight ρ) (c : Combatant) : Fight ρ × List Event :=
  if c.isAlive && fight.boss.isAlive then
    let (damage, dice) := rollDamage c.attack fight.boss.defense fight.dice
    let struck := fight.boss.hurt damage
    ({ fight with boss := struck, dice := dice }, [.hit c.name struck.name damage struck.hpLeft])
  else (fight, [])

/-- The hits of members, one after the other. -/
def hitsOf (fight : Fight ρ) : List Combatant → Fight ρ × List Event
  | [] => (fight, [])
  | c :: rest =>
    let (fight, first) := fight.memberHits c
    let (fight, later) := fight.hitsOf rest
    (fight, first ++ later)

/-- The party attacks, in formation order. -/
def partyAttack (fight : Fight ρ) : Fight ρ × List Event := fight.hitsOf fight.party

/-- The hit of the boss on a member; guarding halves it. -/
def bossHits (fight : Fight ρ) (guarding : Bool) (seat : fight.Seat) (dice : ρ) :
    Fight ρ × List Event :=
  let target := fight.member seat
  let (damage, dice) := rollDamage fight.boss.attack target.defense dice
  let damage := if guarding then max 1 (damage / 2) else damage
  let victim := target.hurt damage
  let hit := Event.hit fight.boss.name victim.name damage victim.hpLeft
  ({ fight.replace seat victim with dice := dice },
    if victim.isAlive then [hit] else [hit, .fell victim.name])

/-- The boss attacks one of the members that stand. -/
def bossAttack (fight : Fight ρ) (guarding : Bool) : Fight ρ × List Event :=
  match fight.standing with
  | [] => (fight, [])
  | seat :: rest =>
    let (choice, dice) := Dice.pick rest.length fight.dice
    fight.bossHits guarding ((seat :: rest).get choice) dice

end Fight
end Arena
end CombatTrials
