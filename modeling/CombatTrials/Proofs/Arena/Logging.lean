import CombatTrials.Arena.Play

/-!
# Logging does not show in a fight

A bout takes the events of a play and writes them down at the end, if it is logged. The log may as
well be written line by line while the play goes on: `playByLine` is such a play, in which every
hit, every heal and every ending looks at `logging` for itself and where a line that also threw the
dice would be noticed. `playByLine_eq` says that it comes to the same. The proof goes through the
actions of a turn one by one (`memberStrikes_eq`, `partyHeals_eq`, `bossStrikes_eq`), each of which
changes the fight as the rules say and notes their events (`note`).

Of two bouts with the same dice one may be logged and the other not. They stay `Twins`: whatever is
played, both are at the same fight, and only one of them has a log. Trials are chosen on plays
without a log and reported from a play with one, so this is what makes the report one of the trial
that was chosen.
-/

namespace CombatTrials
namespace Arena

open Chance (Dice)
open Script (Scope)
open Stage (Ending)

/-! ## The text of a log

Noting is the only thing that is ever done to a bout: move to a fight, and put some events behind
those that are there. It does nothing else to a bout that is not logged than move the fight. -/

theorem logText_append (events later : List Event) :
    logText (events ++ later) = logText events ++ logText later := by
  simp [logText]

theorem logText_singleton (e : Event) : logText [e] = e.text ++ "\n" := by
  simp [logText]

variable {ρ : Type}

namespace Bout

/-- The bout at another fight, with more events. -/
def note (bout : Bout ρ) (fight : Fight ρ) (events : List Event) : Bout ρ :=
  { bout with
    fight := fight
    log := if bout.logging then bout.log ++ logText events else bout.log }

@[simp]
theorem note_fight (bout : Bout ρ) (fight : Fight ρ) (events : List Event) :
    (bout.note fight events).fight = fight := rfl

/-- Noting twice is noting once, at the later fight and with both lists of events. This is what lets
the actions of a turn be told one by one and put together. -/
theorem note_note (bout : Bout ρ) (fight fight' : Fight ρ) (events later : List Event) :
    (bout.note fight events).note fight' later = bout.note fight' (events ++ later) := by
  unfold note
  cases bout.logging with
  | true => simp only [if_true, logText_append, String.append_assoc]
  | false => rfl

/-- Where a rule does nothing there is nothing to note, on a logged bout neither. -/
theorem note_nil (bout : Bout ρ) : bout.note bout.fight [] = bout := by
  obtain ⟨matchup, fight, logging, log⟩ := bout
  cases logging with
  | true => simp [note, logText]
  | false => rfl

/-! ## Writing line by line

What follows is the play of the rules once more, told by one who writes as he goes: each of these
looks at `logging` for itself, through `write`. -/

/-- Writes a line, if the bout is logged. -/
def write (bout : Bout ρ) (e : Event) : Bout ρ :=
  if bout.logging then { bout with log := bout.log ++ (e.text ++ "\n") } else bout

theorem write_eq (bout : Bout ρ) (e : Event) : bout.write e = bout.note bout.fight [e] := by
  unfold write note
  rw [logText_singleton]
  obtain ⟨matchup, fight, logging, log⟩ := bout
  cases logging <;> rfl

/-- A deed and its line: whoever moves the fight and then writes has noted one event. -/
theorem write_moved (bout : Bout ρ) (fight : Fight ρ) (e : Event) :
    ({ bout with fight := fight } : Bout ρ).write e = bout.note fight [e] := by
  rw [write_eq]
  rfl

theorem write_note (bout : Bout ρ) (fight : Fight ρ) (events : List Event) (e : Event) :
    (bout.note fight events).write e = bout.note fight (events ++ [e]) := by
  rw [write_eq]
  exact note_note bout _ _ _ _

/-- The party heals: the weakest member that stands is healed and the line says by how much. With
nobody standing there is nobody to heal, and then there is no line either. -/
def partyHeals (bout : Bout ρ) : Bout ρ :=
  match bout.fight.weakest? with
  | none => bout
  | some seat =>
    let target := bout.fight.member seat
    ({ bout with fight := bout.fight.replace seat target.heal } : Bout ρ).write
      (.healed target.name target.healing target.heal.hp)

theorem partyHeals_eq (bout : Bout ρ) :
    bout.partyHeals = bout.note bout.fight.partyHeal.1 bout.fight.partyHeal.2 := by
  unfold partyHeals Fight.partyHeal
  cases bout.fight.weakest? with
  | none => exact (note_nil bout).symm
  | some seat => exact write_moved bout _ _

variable [Dice ρ]

/-- A member attacks, unless it is down or the boss is. One who finds the boss down throws no dice.
-/
def memberStrikes (bout : Bout ρ) (c : Combatant) : Bout ρ :=
  if c.isAlive && bout.fight.boss.isAlive then
    let (damage, dice) := rollDamage c.attack bout.fight.boss.defense bout.fight.dice
    let struck := bout.fight.boss.hurt damage
    ({ bout with fight := { bout.fight with boss := struck, dice := dice } } : Bout ρ).write
      (.hit c.name struck.name damage struck.hpLeft)
  else bout

/-- The party attacks in the order of its seats, each member on the fight that the one before left.
-/
def partyStrikes (bout : Bout ρ) : Bout ρ := bout.fight.party.foldl memberStrikes bout

/-- The boss attacks somebody who stands. The dice are thrown twice, for the victim and for the
damage, and the victim has a second line if this was its end. -/
def bossStrikes (bout : Bout ρ) (guarding : Bool) : Bout ρ :=
  match bout.fight.standing with
  | [] => bout
  | seat :: rest =>
    let (choice, dice) := Dice.pick rest.length bout.fight.dice
    let seat := (seat :: rest).get choice
    let target := bout.fight.member seat
    let (damage, dice) := rollDamage bout.fight.boss.attack target.defense dice
    let damage := if guarding then max 1 (damage / 2) else damage
    let victim := target.hurt damage
    let struck :=
      ({ bout with fight := { bout.fight.replace seat victim with dice := dice } } : Bout ρ).write
        (.hit bout.fight.boss.name victim.name damage victim.hpLeft)
    if victim.isAlive then struck else struck.write (.fell victim.name)

/-- A turn once the party has acted: the boss attacks unless it was felled. -/
def bossAnswers (bout : Bout ρ) (number : UInt32) (guarding : Bool) : Option Ending × Bout ρ :=
  if bout.fight.boss.isAlive then
    let struck := bout.bossStrikes guarding
    if struck.fight.partyAlive then (none, struck)
    else (some (.wipe number), struck.write (.partyWiped number))
  else (some (.victory number), bout.write (.bossDefeated bout.fight.boss.name number))

/-- A turn once the strategy has decided. -/
def partyActs (bout : Bout ρ) (number : UInt32) : Action → Option Ending × Bout ρ
  | .attack => bout.partyStrikes.bossAnswers number false
  | .guard => (bout.write .guarded).bossAnswers number true
  | .heal => bout.partyHeals.bossAnswers number false
  | .exclude => (some .excluded, bout.write .excluded)

/-- A turn: the strategy decides first, on the fight as it is. A strategy that fails ends the play
with a line for the failure. -/
def turnByLine (bout : Bout ρ) (globals : Scope Action) (number : UInt32) :
    Option Ending × Bout ρ :=
  match choose bout.matchup.encounter.strategy globals number bout.fight with
  | .error failure => (some (.fault (.script number failure)), bout.write (.strategyFailed failure))
  | .ok action => bout.partyActs number action

/-- The turns of a play from one of some number on, `remaining` of them at most. -/
def turnsByLine (globals : Scope Action) (limit : UInt32) :
    (remaining : Nat) → (number : UInt32) → Bout ρ → Ending × Bout ρ
  | 0, _, bout => (.outOfTurns, bout.write (.outOfTurns limit))
  | remaining + 1, number, bout =>
    match (bout.write (.turn number)).turnByLine globals number with
    | (some ending, bout) => (ending, bout)
    | (none, bout) => turnsByLine globals limit remaining (number + 1) bout

/-- A play that is written down line by line. -/
def playByLine (bout : Bout ρ) (limit : UInt32) : Ending × Bout ρ :=
  let bout := bout.write (.opening bout.matchup.encounter.name bout.fight.party.length)
  match globalsOf bout.matchup.encounter.strategy with
  | .error failure => (.fault (.script 0 failure), bout.write (.initializerFailed failure))
  | .ok globals => turnsByLine globals limit limit.toNat 1 bout

/-! ## Both ways come to the same

Each of the functions above is shown to note what the rules say, beginning with the hit of one
member and going up to the play. A line that is written early and one that is written late are the
same text in the end, by `note_note`. -/

theorem memberStrikes_eq (bout : Bout ρ) (c : Combatant) :
    bout.memberStrikes c = bout.note (bout.fight.memberHits c).1 (bout.fight.memberHits c).2 := by
  unfold memberStrikes Fight.memberHits
  -- a member that is down or finds the boss down writes nothing, and noting nothing is the same
  split
  · exact write_moved bout _ _
  · exact (note_nil bout).symm

/-- The attacks of several members. By induction on the members: each notes its event on the fight
of the one before. -/
theorem foldl_memberStrikes_eq (bout : Bout ρ) (members : List Combatant) :
    members.foldl memberStrikes bout =
      bout.note (bout.fight.hitsOf members).1 (bout.fight.hitsOf members).2 := by
  induction members generalizing bout with
  | nil => exact (note_nil bout).symm
  | cons c rest ih =>
    rw [List.foldl_cons, ih, memberStrikes_eq, note_note]
    rfl

theorem partyStrikes_eq (bout : Bout ρ) :
    bout.partyStrikes = bout.note bout.fight.partyAttack.1 bout.fight.partyAttack.2 :=
  foldl_memberStrikes_eq bout bout.fight.party

theorem bossStrikes_eq (bout : Bout ρ) (guarding : Bool) :
    bout.bossStrikes guarding =
      bout.note (bout.fight.bossAttack guarding).1 (bout.fight.bossAttack guarding).2 := by
  unfold bossStrikes Fight.bossAttack
  cases bout.fight.standing with
  | nil => exact (note_nil bout).symm
  | cons seat rest =>
    dsimp only [Fight.bossHits]
    -- one line for the hit, and one more if the victim fell
    rw [write_moved, write_note]
    exact (apply_ite (bout.note _) _ _ _).symm

/-- What a turn of the rules comes to on a bout: its events are noted, and the ending is there if it
was the last one. -/
def noteTurn (bout : Bout ρ) : Turn ρ → Option Ending × Bout ρ
  | .last course => (some course.ending, bout.note course.fight course.events)
  | .on fight events => (none, bout.note fight events)

/-- The boss answers on a bout that has just noted something. It is asked at the fight noted, so
both sides branch on the same two questions: whether the boss stands, and whether anybody stands
after its attack. -/
theorem bossAnswers_eq (bout : Bout ρ) (number : UInt32) (guarding : Bool) (fight : Fight ρ)
    (events : List Event) :
    (bout.note fight events).bossAnswers number guarding =
      bout.noteTurn (bossResponds number guarding (fight, events)) := by
  unfold bossAnswers bossResponds
  simp only [bossStrikes_eq, note_note, note_fight, write_note]
  -- the two questions of the rules, in their order
  by_cases hboss : fight.boss.isAlive = true
  · rw [if_pos hboss, if_pos hboss]
    by_cases hparty : (fight.bossAttack guarding).1.partyAlive = true
    · rw [if_pos hparty, if_pos hparty]
      rfl
    · rw [if_neg hparty, if_neg hparty]
      rfl
  · rw [if_neg hboss, if_neg hboss]
    rfl

/-- One case per action. The three that go on differ in what the party notes before the boss
answers. -/
theorem partyActs_eq (bout : Bout ρ) (number : UInt32) (action : Action) :
    bout.partyActs number action = bout.noteTurn (resolve number bout.fight action) := by
  cases action with
  | attack =>
    rw [partyActs, partyStrikes_eq, bossAnswers_eq]
    rfl
  | guard =>
    rw [partyActs, write_eq, bossAnswers_eq]
    rfl
  | heal =>
    rw [partyActs, partyHeals_eq, bossAnswers_eq]
    rfl
  -- the one action after which the boss is not asked
  | exclude =>
    rw [partyActs, write_eq]
    rfl

theorem turnByLine_eq (bout : Bout ρ) (globals : Scope Action) (number : UInt32) :
    bout.turnByLine globals number =
      bout.noteTurn (takeTurn bout.matchup.encounter.strategy globals number bout.fight) := by
  unfold turnByLine takeTurn
  cases choose bout.matchup.encounter.strategy globals number bout.fight with
  | error failure => exact congrArg _ (write_eq bout _)
  | ok action => exact partyActs_eq bout number action

/-- The turns of a play, by induction on how many remain. The line that opens a turn does not change
the fight, so the strategy is asked at the same fight by both. -/
theorem turnsByLine_eq (bout : Bout ρ) (globals : Scope Action) (limit : UInt32) (remaining : Nat)
    (number : UInt32) :
    turnsByLine globals limit remaining number bout =
      let course :=
        turnsFrom bout.matchup.encounter.strategy globals limit remaining number bout.fight
      (course.ending, bout.note course.fight course.events) := by
  induction remaining generalizing bout number with
  | zero => exact congrArg _ (write_eq bout _)
  | succ remaining ih =>
    rw [turnsByLine, write_eq, turnByLine_eq, turnsFrom]
    -- the match is on what the turn came to, and the line that opens it has no part in that
    change (match noteTurn _
        (takeTurn bout.matchup.encounter.strategy globals number bout.fight) with
      | (some ending, bout) => (ending, bout)
      | (none, bout) => turnsByLine globals limit remaining (number + 1) bout) = _
    cases takeTurn bout.matchup.encounter.strategy globals number bout.fight with
    | last course => exact congrArg _ (note_note bout _ _ _ _)
    | on fight events =>
      dsimp only [noteTurn]
      rw [note_note, ih]
      exact congrArg _ (note_note bout _ _ _ _)

/-- **A play that is written line by line comes to the same** as one that is written down at its
end. -/
theorem playByLine_eq (bout : Bout ρ) (limit : UInt32) :
    bout.playByLine limit = bout.play limit := by
  unfold playByLine Bout.play Matchup.play
  rw [write_eq]
  dsimp only [note]
  cases globalsOf bout.matchup.encounter.strategy with
  | error failure =>
    exact congrArg _ (write_note bout _ _ _)
  | ok globals =>
    dsimp only
    rw [turnsByLine_eq]
    exact congrArg _ (note_note bout _ _ _ _)

/-! ## Twins

Two bouts are followed side by side, of which only one is logged. What they share is the fight, and
it is all that the next play looks at. -/

/-- The bout after plays with some limits, one after the other. -/
def afterAll (bout : Bout ρ) (limits : List UInt32) : Bout ρ :=
  limits.foldl (fun bout limit => (bout.play limit).2) bout

/-- Two bouts of a matchup at the same fight, of which one is logged and the other never was. -/
structure Twins (m : Matchup) (quiet logged : Bout ρ) : Prop where
  quiet_matchup : quiet.matchup = m
  logged_matchup : logged.matchup = m
  fight_eq : logged.fight = quiet.fight
  not_logging : quiet.logging = false
  logging : logged.logging = true
  log_eq : quiet.log = ""

variable {m : Matchup} {quiet logged : Bout ρ}

/-- A play keeps twins: what it does is decided by the matchup and the fight, which they share, and
only the one that is logged looks at its log. -/
theorem Twins.play (h : Twins m quiet logged) (limit : UInt32) :
    (logged.play limit).1 = (quiet.play limit).1 ∧
      Twins m (quiet.play limit).2 (logged.play limit).2 := by
  have hcourse : logged.matchup.play limit logged.fight = quiet.matchup.play limit quiet.fight := by
    rw [h.logged_matchup, h.quiet_matchup, h.fight_eq]
  have hlog : (quiet.play limit).2.log = "" := by
    simp only [Bout.play, h.not_logging, Bool.false_eq_true, if_false, h.log_eq]
  exact ⟨congrArg Course.ending hcourse, h.quiet_matchup, h.logged_matchup,
    congrArg Course.fight hcourse, h.not_logging, h.logging, hlog⟩

theorem Twins.afterAll (h : Twins m quiet logged) (limits : List UInt32) :
    Twins m (quiet.afterAll limits) (logged.afterAll limits) := by
  induction limits generalizing quiet logged with
  | nil => exact h
  | cons limit rest ih => exact ih (h.play limit).2

/-- The log of a play follows what was logged before it, and opens with a line of its own. -/
theorem Twins.log_play (h : Twins m quiet logged) (limit : UInt32) :
    ∃ events, (logged.play limit).2.log = logged.log ++
      logText (.opening m.encounter.name logged.fight.party.length :: events) := by
  obtain ⟨events, hevents⟩ : ∃ events, (m.play limit logged.fight).events =
      .opening m.encounter.name logged.fight.party.length :: events := ⟨_, rfl⟩
  refine ⟨events, ?_⟩
  simp only [Bout.play, h.logging, if_true, h.logged_matchup, hevents]

end Bout

theorem Matchup.twins_bout (m : Matchup) (dice : ρ) :
    Bout.Twins m (m.bout dice false) (m.bout dice true) :=
  ⟨rfl, rfl, rfl, rfl, rfl, rfl⟩

/-- **Logging does not show in a fight.** Whatever was played before on two bouts with the same
dice, one of them logged and the other not, the next play has the same ending on both and leaves the
same party, boss and dice. The log of the one stays empty and that of the other is extended. It
makes no difference to either of them if the log is written line by line, so no line can hide a
throw. For a loadout this says that the ending a trial is chosen for is the ending that is reported
with its log. -/
theorem quiet_and_logged_agree [Dice ρ] (m : Matchup) (dice : ρ) (limits : List UInt32)
    (limit : UInt32) :
    let quiet := (m.bout dice false).afterAll limits
    let logged := (m.bout dice true).afterAll limits
    (logged.play limit).1 = (quiet.play limit).1 ∧
    (logged.play limit).2.fight = (quiet.play limit).2.fight ∧
    (quiet.play limit).2.log = "" ∧
    (∃ events, (logged.play limit).2.log = logged.log ++
      logText (.opening m.encounter.name logged.fight.party.length :: events)) ∧
    (quiet.playByLine limit = quiet.play limit ∧ logged.playByLine limit = logged.play limit) ∧
    ∀ seed, m.loadout.outcome seed limit = (m.loadout.replay seed limit).1 := by
  intro quiet logged
  have htwins : Bout.Twins m quiet logged := (m.twins_bout dice).afterAll limits
  obtain ⟨hending, hplayed⟩ := htwins.play limit
  exact ⟨hending, hplayed.fight_eq, hplayed.log_eq, htwins.log_play limit,
    ⟨Bout.playByLine_eq quiet limit, Bout.playByLine_eq logged limit⟩,
    fun seed => ((m.twins_bout (Chance.Stream.ofSeed seed)).play limit).1.symm⟩

end Arena
end CombatTrials
