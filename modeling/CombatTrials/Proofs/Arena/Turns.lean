import CombatTrials.Proofs.Arena.Logging
import CombatTrials.Proofs.Arena.Moments

/-!
# What a turn comes to

A turn has six exits: the strategy fails or excludes the run, the boss falls to what the party does,
the party falls to the boss, or nobody does and the play goes on. `Resolved` lists them, each with
what is known there, and `takeTurn_resolved` is the one place where a turn is opened. Its cases are
taken in the order of the rules: the boss is looked at before it attacks, the party after.

From turn to turn and from play to play the fight is led along by elementary actions, and the events
of a bout (`Bout.story`) tell of all of them (`leads_afterAll`).
-/

namespace CombatTrials
namespace Arena

open Chance (Dice)
open Script (Scope)
open Stage (Ending)

variable {ρ : Type} [Dice ρ]

/-! ## The exits of a turn

Five exits end a play and one goes on. Every fact about turns is proved by cases on them, with the
fight that the party left and the boss's answer already named. -/

/-- What the party does on an action. -/
def Fight.acts (fight : Fight ρ) : Action → Fight ρ × List Event
  | .attack => fight.partyAttack
  | .guard => (fight, [.guarded])
  | .heal => fight.partyHeal
  | .exclude => (fight, [.excluded])

/-- The fight after the boss attacked those who did an action. -/
def Fight.answered (fight : Fight ρ) (action : Action) : Fight ρ × List Event :=
  (fight.acts action).1.bossAttack (action == .guard)

/-- What a turn came to, and why. -/
inductive Resolved (strategy : Option Script.Program) (globals : Scope Action) (number : UInt32)
    (fight : Fight ρ) : Turn ρ → Prop
  | failed {failure : Script.Failure} (hc : choose strategy globals number fight = .error failure) :
      Resolved strategy globals number fight
        (.last ⟨.fault (.script number failure), fight, [.strategyFailed failure]⟩)
  | excluded (hc : choose strategy globals number fight = .ok .exclude) :
      Resolved strategy globals number fight (.last ⟨.excluded, fight, [.excluded]⟩)
  | victory {action : Action} (hc : choose strategy globals number fight = .ok action)
      (hboss : (fight.acts action).1.boss.isAlive = false) :
      Resolved strategy globals number fight (.last ⟨.victory number, (fight.acts action).1,
        (fight.acts action).2 ++ [.bossDefeated (fight.acts action).1.boss.name number]⟩)
  | wipe {action : Action} (hc : choose strategy globals number fight = .ok action)
      (hboss : (fight.acts action).1.boss.isAlive = true)
      (hparty : (fight.answered action).1.partyAlive = false) :
      Resolved strategy globals number fight (.last ⟨.wipe number, (fight.answered action).1,
        (fight.acts action).2 ++ (fight.answered action).2 ++ [.partyWiped number]⟩)
  | on {action : Action} (hc : choose strategy globals number fight = .ok action)
      (hboss : (fight.acts action).1.boss.isAlive = true)
      (hparty : (fight.answered action).1.partyAlive = true) :
      Resolved strategy globals number fight
        (.on (fight.answered action).1 ((fight.acts action).2 ++ (fight.answered action).2))

section Turn

variable {strategy : Option Script.Program} {globals : Scope Action} {number : UInt32}
  {fight : Fight ρ}

/-- The three exits that an action can lead to once the party has acted. Both questions of the rules
are asked here, and nowhere else in what follows. -/
theorem resolved_bossResponds {action : Action}
    (hc : choose strategy globals number fight = .ok action) :
    Resolved strategy globals number fight
      (bossResponds number (action == .guard) (fight.acts action)) := by
  show Resolved strategy globals number fight
    (if (fight.acts action).1.boss.isAlive
      then (if (fight.answered action).1.partyAlive then _ else _) else _)
  by_cases hboss : (fight.acts action).1.boss.isAlive = true
  · rw [if_pos hboss]
    by_cases hparty : (fight.answered action).1.partyAlive = true
    · exact (if_pos hparty).symm ▸ .on hc hboss hparty
    · exact (if_neg hparty).symm ▸ .wipe hc hboss (Bool.eq_false_iff.mpr hparty)
  · rw [if_neg hboss]
    exact .victory hc (Bool.eq_false_iff.mpr hboss)

/-- **The exits of a turn** are those of `Resolved`. -/
theorem takeTurn_resolved (strategy : Option Script.Program) (globals : Scope Action)
    (number : UInt32) (fight : Fight ρ) :
    Resolved strategy globals number fight (takeTurn strategy globals number fight) := by
  unfold takeTurn
  cases hc : choose strategy globals number fight with
  | error failure => exact .failed hc
  | ok action =>
    cases action with
    | exclude => exact .excluded hc
    | attack | guard | heal => exact resolved_bossResponds hc

theorem turnsFrom_of_last {course : Course ρ}
    (h : takeTurn strategy globals number fight = .last course) (limit : UInt32) (remaining : Nat) :
    turnsFrom strategy globals limit (remaining + 1) number fight =
      course.after [.turn number] := by
  rw [turnsFrom, h]

/-- What is left of the turns is played from the fight that this one hands on, under the next
number. -/
theorem turnsFrom_of_on {next : Fight ρ} {events : List Event}
    (h : takeTurn strategy globals number fight = .on next events) (limit : UInt32)
    (remaining : Nat) :
    turnsFrom strategy globals limit (remaining + 1) number fight =
      (turnsFrom strategy globals limit remaining (number + 1) next).after
        (.turn number :: events) := by
  rw [turnsFrom, h]

end Turn

/-! ## Turns and plays by elementary actions

The trail of a turn is that of the party's action, and of the boss's attack if there was one. Trails
compose, and so the events of any number of plays tell of one trail from the start of the fight. -/

namespace Fight

theorem leads_acts (fight : Fight ρ) (action : Action) : Leads fight (fight.acts action) := by
  cases action with
  | attack => exact fight.leads_partyAttack
  | heal => exact fight.leads_partyHeal
  | guard | exclude => exact .still rfl

theorem leads_answered {fight : Fight ρ} {action : Action}
    (hboss : (fight.acts action).1.boss.isAlive = true) :
    Leads (fight.acts action).1 (fight.answered action) :=
  leads_bossAttack _ hboss

end Fight

/-- The fight at the end and all that was told on the way, for whoever does not ask how it ended. -/
def Course.outcome (course : Course ρ) : Fight ρ × List Event := (course.fight, course.events)

/-- The same of a turn, whether it was the last or not. -/
def Turn.outcome : Turn ρ → Fight ρ × List Event
  | .last course => course.outcome
  | .on fight events => (fight, events)

/-- Whatever exit a turn takes, it has led to its fight by elementary actions. The lines that open
or close a turn tell of none. -/
theorem Resolved.leads {strategy : Option Script.Program} {globals : Scope Action} {number : UInt32}
    {fight : Fight ρ} {turn : Turn ρ} (h : Resolved strategy globals number fight turn) :
    Leads fight turn.outcome := by
  cases h with
  | failed | excluded => exact .still rfl
  | @victory action hc hboss =>
    refine (fight.leads_acts action).told ?_
    simp [Event.isDeed]
  -- the boss stood when it attacked, or this exit would not have been reached
  | @wipe action hc hboss hparty =>
    refine ((fight.leads_acts action).trans (Fight.leads_answered hboss)).told ?_
    simp [Event.isDeed]
  | @on action hc hboss hparty => exact (fight.leads_acts action).trans (Fight.leads_answered hboss)

/-- The turns are led along one after the other, by induction on how many remain. -/
theorem leads_turnsFrom (strategy : Option Script.Program) (globals : Scope Action) (limit : UInt32)
    (remaining : Nat) (number : UInt32) (fight : Fight ρ) :
    Leads fight (turnsFrom strategy globals limit remaining number fight).outcome := by
  induction remaining generalizing number fight with
  | zero => exact .still rfl
  | succ remaining ih =>
    have hturn := (takeTurn_resolved strategy globals number fight).leads
    -- the last turn ends the trail, and any other hands on a fight to the turns behind it
    cases ht : takeTurn strategy globals number fight with
    | last course =>
      rw [ht] at hturn
      rw [turnsFrom_of_last ht]
      exact hturn.told rfl
    | on next events =>
      rw [ht] at hturn
      rw [turnsFrom_of_on ht]
      exact (hturn.trans (ih (number + 1) next)).told rfl

theorem leads_play (m : Matchup) (limit : UInt32) (fight : Fight ρ) :
    Leads fight (m.play limit fight).outcome := by
  unfold Matchup.play
  cases globalsOf m.encounter.strategy with
  | error failure => exact .still rfl
  | ok globals =>
    exact (leads_turnsFrom m.encounter.strategy globals limit limit.toNat 1 fight).told rfl

namespace Bout

/-- The events of plays with some limits, one after the other. -/
def story (bout : Bout ρ) : List UInt32 → List Event
  | [] => []
  | limit :: rest => (bout.matchup.play limit bout.fight).events ++ (bout.play limit).2.story rest

/-- And so are all plays of a bout, each from the fight that the one before it left. -/
theorem leads_afterAll (bout : Bout ρ) (limits : List UInt32) :
    Leads bout.fight ((bout.afterAll limits).fight, bout.story limits) := by
  induction limits generalizing bout with
  | nil => exact .still rfl
  | cons limit rest ih =>
    exact (leads_play bout.matchup limit bout.fight).trans (ih (bout.play limit).2)

/-- The log of a logged bout is its story. -/
theorem log_afterAll (bout : Bout ρ) (h : bout.logging = true) (limits : List UInt32) :
    (bout.afterAll limits).log = bout.log ++ logText (bout.story limits) := by
  induction limits generalizing bout with
  | nil => simp [afterAll, story, logText]
  | cons limit rest ih =>
    -- a logged bout stays logged, so every play puts its events behind the log
    have hplay :
        (bout.play limit).2.log = bout.log ++
          logText (bout.matchup.play limit bout.fight).events := by
      simp only [play, h, if_true]
    have hrest := ih (bout.play limit).2 h
    rw [hplay] at hrest
    rw [story, logText_append, ← String.append_assoc]
    exact hrest

end Bout
end Arena
end CombatTrials
