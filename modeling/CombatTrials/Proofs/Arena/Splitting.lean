import CombatTrials.Proofs.Arena.Horizon
import CombatTrials.Proofs.Script.Dependence

/-!
# One fight in two plays

A play that meets its limit leaves a fight to go on with, and the next play goes on with it: it runs
the initializer again, which starts from nothing and leaves the same variables, and numbers its
turns from one again. So the turns of the second play are those that a longer first play would have
taken, but for their numbers. Of all that a turn does, only the strategy can look at the number,
through the variable `turn`, and a strategy that does not mention it decides alike on turns of any
number (`choose_of_blind`).

Then the two ways to fight go on in step, under numbers that are a constant apart, up to a `Later`
ending.
-/

namespace CombatTrials
namespace Arena

open Chance (Dice Stream)
open Script (Scope)
open Stage (Ending)

variable {ρ : Type}

/-! ## Strategies that do not look at the number of the turn

Only the body counts: an initializer runs before any turn has a number, so the variable means
nothing to it but what it binds itself. -/

/-- The body of the strategy, if there is one, does not mention the number of the turn. -/
def Blind (strategy : Option Script.Program) : Prop :=
  ∀ script, strategy = some script → "turn" ∉ script.body.identifiers

theorem find?_bindObjects_congr {scope scope' : Scope Action} {x : String}
    (h : scope.find? x = scope'.find? x) (identity : Nat)
    (objects : List (String × Script.Object Action)) :
    (bindObjects scope identity objects).find? x =
      (bindObjects scope' identity objects).find? x := by
  induction objects generalizing scope scope' identity with
  | nil => exact h
  | cons first rest ih => exact ih (Scope.find?_set_congr _ fun _ => h) (identity + 1)

theorem find?_bindTurn_congr {x : String} (hx : x ≠ "turn") (globals : Scope Action)
    (number number' : UInt32) (fight : Fight ρ) :
    (bindTurn globals number fight).find? x = (bindTurn globals number' fight).find? x := by
  refine find?_bindObjects_congr ?_ 0 (turnObjects fight)
  rw [Scope.find?_set_ne hx, Scope.find?_set_ne hx]

/-- A strategy decides on what its body leaves in hand, or fails with the failure of its body. -/
theorem choose_some (script : Script.Program) (globals : Scope Action) (number : UInt32)
    (fight : Fight ρ) :
    choose (some script) globals number fight =
      let account := script.body.account actionHost (bindTurn globals number fight) .attack
      match account.result with
      | .ok () => .ok account.state
      | .error failure => .error failure := rfl

/-- **What a blind strategy decides does not depend on the number of the turn**, be it an action or
a failure. -/
theorem choose_of_blind {strategy : Option Script.Program} (h : Blind strategy)
    (globals : Scope Action) (number number' : UInt32) (fight : Fight ρ) :
    choose strategy globals number fight = choose strategy globals number' fight := by
  cases strategy with
  | none => rfl
  | some script =>
    -- all that the body mentions is bound to the same values, and a script sees nothing else
    have hagree : ∀ x ∈ script.body.identifiers,
        (bindTurn globals number fight).find? x = (bindTurn globals number' fight).find? x := by
      intro x hx
      refine find?_bindTurn_congr ?_ globals number number' fight
      rintro rfl
      exact h script rfl hx
    obtain ⟨hresult, hdone, -⟩ := Script.Statement.account_of_agree actionHost .attack hagree
    have hstate : (script.body.account actionHost (bindTurn globals number fight) .attack).state =
        (script.body.account actionHost (bindTurn globals number' fight) .attack).state :=
      (Prod.ext_iff.mp hdone).1
    simp only [choose_some, hresult, hstate]

/-! ## Turns under other numbers

The number of a turn gets into its heading and into the ending that names it. Party, boss and dice
see nothing of it. -/

/-- Endings of which the second is the first, on a turn whose number is greater by `k`. -/
inductive Later (k : Nat) : Ending → Ending → Prop
  | victory {turn turn' : UInt32} (h : turn'.toNat = turn.toNat + k) :
      Later k (.victory turn) (.victory turn')
  | wipe {turn turn' : UInt32} (h : turn'.toNat = turn.toNat + k) :
      Later k (.wipe turn) (.wipe turn')
  | script {turn turn' : UInt32} {failure : Script.Failure} (h : turn'.toNat = turn.toNat + k) :
      Later k (.fault (.script turn failure)) (.fault (.script turn' failure))
  | excluded : Later k .excluded .excluded
  | outOfTurns : Later k .outOfTurns .outOfTurns

/-- Turns that differ in their numbers alone. -/
inductive Turn.Later (k : Nat) : Turn ρ → Turn ρ → Prop
  | last {course course' : Course ρ} (hfight : course'.fight = course.fight)
      (hending : Arena.Later k course.ending course'.ending) :
      Later k (.last course) (.last course')
  | on (fight : Fight ρ) (events : List Event) : Later k (.on fight events) (.on fight events)

variable [Dice ρ] {k : Nat} {number number' : UInt32}

theorem later_bossResponds (h : number'.toNat = number.toNat + k) (guarding : Bool)
    (acted : Fight ρ × List Event) :
    Turn.Later k (bossResponds number guarding acted) (bossResponds number' guarding acted) := by
  obtain ⟨fight, events⟩ := acted
  simp only [bossResponds]
  by_cases hboss : fight.boss.isAlive = true
  · rw [if_pos hboss, if_pos hboss]
    by_cases hparty : (fight.bossAttack guarding).1.partyAlive = true
    · rw [if_pos hparty, if_pos hparty]
      exact .on _ _
    · rw [if_neg hparty, if_neg hparty]
      exact .last rfl (.wipe h)
  · rw [if_neg hboss, if_neg hboss]
    exact .last rfl (.victory h)

/-- A turn under another number: the strategy decides the same, and the number goes into the ending.
-/
theorem later_takeTurn {strategy : Option Script.Program} (hblind : Blind strategy)
    (h : number'.toNat = number.toNat + k) (globals : Scope Action) (fight : Fight ρ) :
    Turn.Later k (takeTurn strategy globals number fight)
      (takeTurn strategy globals number' fight) := by
  unfold takeTurn
  rw [choose_of_blind hblind globals number' number fight]
  cases choose strategy globals number fight with
  | error failure => exact .last rfl (.script h)
  | ok action =>
    cases action with
    | exclude => exact .last rfl .excluded
    | attack => exact later_bossResponds h false fight.partyAttack
    | guard => exact later_bossResponds h true (fight, [.guarded])
    | heal => exact later_bossResponds h false fight.partyHeal

/-- The turns of a play from one number on and from a later one. The number after the greatest is
never used. -/
theorem later_turnsFrom {strategy : Option Script.Program} (hblind : Blind strategy)
    (globals : Scope Action) (limit limit' : UInt32) (remaining : Nat) (fight : Fight ρ)
    (h : 0 < remaining → number'.toNat = number.toNat + k)
    (hroom : number'.toNat + remaining ≤ UInt32.size) :
    let course := turnsFrom strategy globals limit remaining number fight
    let course' := turnsFrom strategy globals limit' remaining number' fight
    course'.fight = course.fight ∧ Later k course.ending course'.ending := by
  induction remaining generalizing number number' fight with
  | zero => exact ⟨rfl, .outOfTurns⟩
  | succ remaining ih =>
    have hnumber := h (Nat.succ_pos remaining)
    have hturn := later_takeTurn hblind hnumber globals fight
    -- either both turns are the last or both go on, and then from the same fight
    generalize ht : takeTurn strategy globals number fight = turn at hturn
    generalize ht' : takeTurn strategy globals number' fight = turn' at hturn
    cases hturn with
    | last hfight hending =>
      rw [turnsFrom_of_last ht, turnsFrom_of_last ht']
      exact ⟨hfight, hending⟩
    | on next events =>
      rw [turnsFrom_of_on ht, turnsFrom_of_on ht']
      refine ih next (fun hmore => ?_) ?_
      · rw [Data.toNat_succ (by omega), Data.toNat_succ (by omega), hnumber]
        omega
      · by_cases hmore : remaining = 0
        · -- the number may have passed the greatest one, and no turn is taken under it
          have hsize := (number' + 1).toNat_lt_size
          omega
        · rw [Data.toNat_succ (by omega)]
          omega

/-! ## Two plays and one

Two limits add up to a word, so no number of a turn of the long play wraps around. -/

/-- **Splitting a fight.** Where the strategy does not look at the number of the turn, a play that
meets its limit and another after it come to what one play with both limits together comes to: the
same party, boss and dice, and the same ending, on a turn whose number is smaller by the limit of
the first play. -/
theorem split_fight_is_one_fight (bout : Bout ρ) {first second : UInt32}
    (hblind : Blind bout.matchup.encounter.strategy)
    (hroom : first.toNat + second.toNat < UInt32.size) (hmet : (bout.play first).1 = .outOfTurns) :
    let split := (bout.play first).2.play second
    let whole := bout.play (first + second)
    whole.2.fight = split.2.fight ∧ Later first.toNat split.1 whole.1 := by
  intro split whole
  change (bout.matchup.play first bout.fight).ending = .outOfTurns at hmet
  change (bout.matchup.play (first + second) bout.fight).fight =
      (bout.matchup.play second (bout.matchup.play first bout.fight).fight).fight ∧
    Later first.toNat (bout.matchup.play second (bout.matchup.play first bout.fight).fight).ending
      (bout.matchup.play (first + second) bout.fight).ending
  cases hglobals : globalsOf bout.matchup.encounter.strategy with
  | error failure =>
    rw [Matchup.play_of_error hglobals] at hmet
    cases hmet
  | ok globals =>
    have hadd :=
      turnsFrom_add bout.matchup.encounter.strategy globals first (first + second) first.toNat
        second.toNat 1 bout.fight
    rw [UInt32.ofNat_toNat, ← Data.toNat_add hroom] at hadd
    rcases hadd with ⟨hended, -⟩ | ⟨last, events, hshort, hlong⟩
    · rw [Matchup.play_of_ok hglobals] at hmet
      exact absurd hmet hended
    · -- both go on from where the first play stopped, one with turn 1 and the other with the
      -- turn after the limit
      have hlast : (bout.matchup.play first bout.fight).fight = last := by
        rw [Matchup.play_of_ok hglobals, hshort]
        rfl
      rw [hlast, Matchup.play_of_ok hglobals, Matchup.play_of_ok hglobals, hlong]
      have hone : (1 : UInt32).toNat = 1 := rfl
      refine later_turnsFrom hblind globals second (first + second) second.toNat last
        (fun hmore => ?_) ?_
      · rw [Data.toNat_add (by omega)]
      · have hnumber : (1 + first).toNat ≤ 1 + first.toNat := by
          rw [UInt32.toNat_add]
          exact Nat.mod_le _ _
        omega

/-- One member against a boss, with a strategy that fails once the boss has lost half of its hit
points. -/
def skirmish : Matchup where
  encounter := ⟨"skirmish", [⟨"Aria", 10, 5, 0⟩], ⟨"Slime", 12, 3, 0⟩, some (.ofBody (.switch none [
    .matching [.lessThan (.access (.identifier "boss") "hp_ratio") (.number 0.5)]
      (.invoke "retreat"),
    .default (.invoke "attack")]))⟩
  sound := by decide

theorem split_fight_is_one_fight_in_skirmish :
    let bout := skirmish.bout (Stream.ofSeed 7) true
    let split := (bout.play 1).2.play 2
    let whole := bout.play 3
    Blind skirmish.encounter.strategy ∧ (bout.play 1).1 = .outOfTurns ∧
      split.1 = .fault (.script 2 (.undefinedName "retreat")) ∧
      whole.1 = .fault (.script 3 (.undefinedName "retreat")) ∧ Later 1 split.1 whole.1 ∧
      whole.2.fight = split.2.fight := by
  intro bout split whole
  have hblind : Blind skirmish.encounter.strategy := by
    rintro script ⟨⟩
    decide
  have hmet : (bout.play 1).1 = .outOfTurns := by decide +kernel
  have hfailed : whole.1 = .fault (.script 3 (.undefinedName "retreat")) := by decide +kernel
  have hfailed' : split.1 = .fault (.script 2 (.undefinedName "retreat")) := by decide +kernel
  have hroom : (1 : UInt32).toNat + (2 : UInt32).toNat < UInt32.size := by decide
  obtain ⟨hfight, hlater⟩ := split_fight_is_one_fight bout hblind hroom hmet
  exact ⟨hblind, hmet, hfailed', hfailed, hlater, hfight⟩

end Arena
end CombatTrials
