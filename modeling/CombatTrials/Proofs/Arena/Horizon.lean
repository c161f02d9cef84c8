import CombatTrials.Proofs.Arena.Verdict

/-!
# A higher limit

The limit of a play is not among the things that a turn looks at, so a play with a higher limit
takes the same turns, and more of them if the lower limit was met (`turnsFrom_add`). Whether it was
met shows in the ending: a turn never comes to `outOfTurns`.
-/

namespace CombatTrials
namespace Arena

open Chance (Dice Stream)
open Script (Scope)
open Stage (Ending)

variable {ρ : Type}

/-- What can come of a play whose first turns, of which there are `limit`, did not end it. -/
def Beyond (limit : UInt32) : Ending → Prop
  | .outOfTurns | .excluded => True
  | .victory turn | .wipe turn | .fault (.script turn _) => limit < turn
  | .fault _ => False

/-- Turns that are counted from beyond a limit end beyond it, if a turn ends them. -/
theorem Closed.beyond {before after : Fight ρ} {limit : UInt32} {stop : Nat} {ending : Ending}
    (h : Closed before (limit.toNat + 1) stop ending after) : Beyond limit ending := by
  -- an exit names its turn, and the bounds on turns say that it is a later one
  cases h with
  | @won side turn he hfirst _ _ =>
    have hlt : limit < turn := UInt32.lt_iff_toNat_lt.mpr hfirst
    subst he
    cases side with
    | party => exact hlt
    | boss => exact hlt
  | excluded he | outOfTurns he =>
    subst he
    trivial
  | failed he hfirst =>
    subst he
    exact UInt32.lt_iff_toNat_lt.mpr hfirst

/-- What was told before a course can be put in front of it in one piece or in two. -/
theorem Course.after_after (course : Course ρ) (earlier events : List Event) :
    (course.after events).after earlier = course.after (earlier ++ events) := by
  simp [after]

variable [Dice ρ] {strategy : Option Script.Program} {globals : Scope Action} {number : UInt32}
  {fight : Fight ρ}

/-- The limit is nothing a turn knows of, so no turn says that it was met. -/
theorem Resolved.ending_ne_outOfTurns {course : Course ρ}
    (h : Resolved strategy globals number fight (.last course)) : course.ending ≠ .outOfTurns := by
  cases h <;> simp

/-- The course of some turns and of `more` that may follow them, under a limit of their own each. -/
theorem turnsFrom_add (strategy : Option Script.Program) (globals : Scope Action)
    (limit limit' : UInt32) (remaining more : Nat) (number : UInt32) (fight : Fight ρ) :
    let short := turnsFrom strategy globals limit remaining number fight
    let long := turnsFrom strategy globals limit' (remaining + more) number fight
    (short.ending ≠ .outOfTurns ∧ long = short) ∨
      ∃ last events, short = ⟨.outOfTurns, last, events ++ [.outOfTurns limit]⟩ ∧
        long =
          (turnsFrom strategy globals limit' more (number + .ofNat remaining) last).after
            events := by
  induction remaining generalizing number fight with
  -- no turn is left to the shorter play, which stops where the longer one starts on its own
  | zero =>
    refine Or.inr ⟨fight, [], rfl, ?_⟩
    rw [Nat.zero_add, show number + .ofNat 0 = number from UInt32.add_zero number]
    rfl
  | succ remaining ih =>
    rw [Nat.succ_add]
    cases ht : takeTurn strategy globals number fight with
    | last course =>
      have hturn := takeTurn_resolved strategy globals number fight
      rw [ht] at hturn
      rw [turnsFrom_of_last ht, turnsFrom_of_last ht]
      exact Or.inl ⟨hturn.ending_ne_outOfTurns, rfl⟩
    | on next events =>
      -- both count on from the same number, be it one turn before the end or in the middle
      have hnumber : number + 1 + .ofNat remaining = number + .ofNat (remaining + 1) := by
        rw [Nat.add_comm remaining 1, UInt32.ofNat_add, UInt32.add_assoc]
        rfl
      rw [turnsFrom_of_on ht, turnsFrom_of_on ht]
      rcases ih (number + 1) next with ⟨hended, hsame⟩ | ⟨last, later, hmet, hgoes⟩
      · exact Or.inl ⟨hended, congrArg _ hsame⟩
      · refine Or.inr ⟨last, .turn number :: events ++ later, ?_, ?_⟩
        · rw [hmet]
          simp [Course.after]
        · rw [hgoes, Course.after_after, hnumber]

/-- The turns after those that a limit allows, up to a higher one. -/
theorem beyond_turnsFrom (strategy : Option Script.Program) (globals : Scope Action)
    {limit limit' : UInt32} (hle : limit ≤ limit') (fight : Fight ρ) :
    Beyond limit (turnsFrom strategy globals limit' (limit'.toNat - limit.toNat)
      (1 + limit) fight).ending := by
  have hsize := limit'.toNat_lt_size
  have hle' := UInt32.le_iff_toNat_le.mp hle
  by_cases hmore : limit'.toNat - limit.toNat = 0
  · -- equal limits leave no turn, and then the number after the limit may have wrapped around
    rw [hmore]
    trivial
  · have hfirst : (1 + limit).toNat = limit.toNat + 1 := by
      rw [UInt32.add_comm]
      exact Data.toNat_succ (by omega)
    have hclosed :=
      closed_turnsFrom strategy globals limit' (limit'.toNat - limit.toNat) (1 + limit) fight
        (by omega)
    rw [hfirst] at hclosed
    exact hclosed.beyond

/-- The courses of two plays from one fight, of which the second has the higher limit. -/
theorem Matchup.play_of_le (m : Matchup) {limit limit' : UInt32} (hle : limit ≤ limit')
    (fight : Fight ρ) :
    let short := m.play limit fight
    let long := m.play limit' fight
    (short.ending ≠ .outOfTurns ∧ long = short) ∨
      short.ending = .outOfTurns ∧ Beyond limit long.ending ∧
        ∃ events rest, short.events = events ++ [.outOfTurns limit] ∧
          long.events = events ++ rest := by
  cases hglobals : globalsOf m.encounter.strategy with
  | error failure =>
    rw [play_of_error hglobals, play_of_error hglobals]
    exact Or.inl ⟨by simp, rfl⟩
  | ok globals =>
    rw [play_of_ok hglobals, play_of_ok hglobals]
    -- the longer play has the turns of the shorter one and as many as the limits differ by
    have hadd := turnsFrom_add m.encounter.strategy globals limit limit' limit.toNat
      (limit'.toNat - limit.toNat) 1 fight
    rw [Nat.add_sub_cancel' (UInt32.le_iff_toNat_le.mp hle), UInt32.ofNat_toNat] at hadd
    rcases hadd with ⟨hended, hsame⟩ | ⟨last, events, hmet, hgoes⟩
    · exact Or.inl ⟨hended, congrArg _ hsame⟩
    · rw [hmet, hgoes]
      exact Or.inr ⟨rfl, beyond_turnsFrom _ globals hle last,
        .opening m.encounter.name fight.party.length :: events, _, rfl, rfl⟩

/-- **A higher limit only continues the fight.** From any state of a bout, a play that does not meet
its limit is the same under a higher one. A play that meets its limit is the beginning of the play
under a higher one, which ends on a later turn if a turn ends it; its log is that of the beginning,
without the line for the limit, and goes on from there. -/
theorem longer_limit_continues (bout : Bout ρ) {limit limit' : UInt32} (hle : limit ≤ limit') :
    let short := bout.play limit
    let long := bout.play limit'
    (short.1 ≠ .outOfTurns → long = short) ∧
    (short.1 = .outOfTurns → Beyond limit long.1 ∧
      (bout.logging = true → ∃ common rest,
        short.2.log = bout.log ++ common ++ s!"Out of turns after {limit}\n" ∧
        long.2.log = bout.log ++ common ++ rest)) := by
  intro short long
  rcases bout.matchup.play_of_le hle bout.fight with
    ⟨hended, hsame⟩ | ⟨hmet, hbeyond, events, rest, hshort, hlong⟩
  · refine ⟨fun _ => ?_, fun hmet => absurd hmet hended⟩
    simp only [long, short, Bout.play, hsame]
  · refine ⟨fun hended => absurd hmet hended, fun _ => ⟨hbeyond, fun hlogging => ?_⟩⟩
    -- the line for the limit is the last of the shorter log, and has no place in the longer one
    refine ⟨logText events, logText rest, ?_, ?_⟩
    · simp only [short, Bout.play, hlogging, if_true, hshort, logText_append, logText_singleton,
        String.append_assoc]
      rfl
    · simp only [long, Bout.play, hlogging, if_true, hlong, logText_append, String.append_assoc]

/-- One member against a boss that it fells with its second hit. -/
def sparring : Matchup where
  encounter := ⟨"sparring", [⟨"Aria", 10, 5, 0⟩], ⟨"Slime", 8, 1, 0⟩, none⟩
  sound := by decide

theorem longer_limit_continues_in_sparring :
    let bout := sparring.bout (Stream.ofSeed 7) true
    (bout.play 1).1 = .outOfTurns ∧ (bout.play 2).1 = .victory 2 ∧ Beyond 1 (bout.play 2).1 ∧
    bout.play 3 = bout.play 2 ∧
    ∃ common rest,
      (bout.play 1).2.log = bout.log ++ common ++ s!"Out of turns after {(1 : UInt32)}\n" ∧
      (bout.play 2).2.log = bout.log ++ common ++ rest := by
  intro bout
  have hmet : (bout.play 1).1 = .outOfTurns := by decide +kernel
  have hwon : (bout.play 2).1 = .victory 2 := by decide +kernel
  have honce : (1 : UInt32) ≤ 2 := by decide
  have htwice : (2 : UInt32) ≤ 3 := by decide
  obtain ⟨hbeyond, hlog⟩ := (longer_limit_continues bout honce).2 hmet
  have hsame := (longer_limit_continues bout htwice).1 (by simp [hwon])
  exact ⟨hmet, hwon, hbeyond, hsame, hlog rfl⟩

end Arena
end CombatTrials
