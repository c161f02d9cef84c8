import CombatTrials.Proofs.Arena.Endurance
import CombatTrials.Proofs.Data.Counter

/-!
# The ending of a play and the fight it leaves

A fight is won by a side once the other is down (`Fight.winner?`). Elementary actions leave it so:
the boss does not recover, and where no member stands nothing is done at all. So there is one lemma
for both sides, `Does.winner?`, and what a later play of a fight that is won can come to follows
from a look at its first turn (`Resolved.of_winner`).

For a fight that nobody has won yet the turns are followed one by one: `Closed` says of any number
of turns what `Resolved` says of one. Its bounds are on the numbers of the turns that are taken, so
the last of them is the limit of the play, the greatest number there is included.
-/

namespace CombatTrials
namespace Arena

open Chance (Dice)
open Data (toNat_succ)
open Script (Scope)
open Stage (Ending PlayFault)

variable {ρ : Type}

/-! ## Fights that are won

The rules ask for the boss before they ask for the party, so the party is the winner where both are
down. Such a fight is never played, but the definition has to say something of it. -/

/-- A side of a fight. -/
inductive Side where
  | party
  | boss
  deriving DecidableEq, Repr

namespace Side

/-- How a play ends that a side wins on a turn. -/
def wins : Side → UInt32 → Ending
  | .party => .victory
  | .boss => .wipe

variable {side side' : Side} {turn turn' : UInt32}

theorem wins_inj : side.wins turn = side'.wins turn' ↔ side = side' ∧ turn = turn' := by
  cases side <;> cases side' <;> simp [wins]

theorem wins_ne_outOfTurns : side.wins turn ≠ .outOfTurns := by cases side <;> simp [wins]

theorem wins_ne_excluded : side.wins turn ≠ .excluded := by cases side <;> simp [wins]

theorem wins_ne_fault {cause : PlayFault} : side.wins turn ≠ .fault cause := by
  cases side <;> simp [wins]

end Side

namespace Fight

variable {fight : Fight ρ}

/-- The side that has won. -/
def winner? (fight : Fight ρ) : Option Side :=
  if fight.boss.isAlive then if fight.partyAlive then none else some .boss else some .party

theorem winner?_eq_none :
    fight.winner? = none ↔ fight.boss.isAlive = true ∧ fight.partyAlive = true := by
  unfold winner?
  cases fight.boss.isAlive <;> cases fight.partyAlive <;> decide

/-- A party has won as soon as the boss is down, even if nobody of it should stand. Fights that are
played never come to that, but the rules ask for the boss first. -/
theorem winner?_eq_party : fight.winner? = some .party ↔ fight.boss.isAlive = false := by
  unfold winner?
  cases fight.boss.isAlive <;> cases fight.partyAlive <;> decide

theorem winner?_eq_boss :
    fight.winner? = some .boss ↔ fight.boss.isAlive = true ∧ fight.partyAlive = false := by
  unfold winner?
  cases fight.boss.isAlive <;> cases fight.partyAlive <;> decide

theorem partyAlive_iff : fight.partyAlive = true ↔ ∃ c ∈ fight.party, 0 < c.hp := by
  simp [partyAlive, Combatant.isAlive]

theorem partyAlive_eq_false_iff : fight.partyAlive = false ↔ ∀ c ∈ fight.party, c.hp ≤ 0 := by
  simp [partyAlive, Combatant.isAlive]

theorem standing_eq_nil (h : fight.partyAlive = false) : fight.standing = [] := by
  refine List.eq_nil_iff_forall_not_mem.mpr fun seat hseat => ?_
  rw [fight.partyAlive_of_seat (mem_standing.mp hseat)] at h
  cases h

end Fight

/-! ## What turns came to

The relation is between the fights before and after and the numbers of the turns between them. It
does not know of a limit; that the play met it is the exit in which no turn is left. -/

/-- What turns with numbers from `first` on and below `stop` came to. -/
inductive Closed (before : Fight ρ) (first stop : Nat) (ending : Ending) (after : Fight ρ) : Prop
  | won (side : Side) {turn : UInt32} (he : ending = side.wins turn) (hfirst : first ≤ turn.toNat)
      (hstop : turn.toNat < stop) (hwon : after.winner? = some side)
  | excluded (he : ending = .excluded)
  | failed {turn : UInt32} {failure : Script.Failure} (he : ending = .fault (.script turn failure))
      (hfirst : first ≤ turn.toNat) (hstop : turn.toNat < stop)
  /-- Nobody has won once a turn was taken. -/
  | outOfTurns (he : ending = .outOfTurns)
      (hopen : before.winner? = none ∨ first < stop → after.winner? = none)

section Closed

variable {before after : Fight ρ} {first stop : Nat} {ending : Ending}

/-- A turn that nobody won may come before. -/
theorem Closed.earlier {next : Fight ρ} (h : Closed next (first + 1) stop ending after)
    (hnext : next.winner? = none) : Closed before first stop ending after := by
  cases h with
  | won side he hfirst hstop hwon => exact .won side he (Nat.le_of_succ_le hfirst) hstop hwon
  | excluded he => exact .excluded he
  | failed he hfirst hstop => exact .failed he (Nat.le_of_succ_le hfirst) hstop
  | outOfTurns he hopen => exact .outOfTurns he fun _ => hopen (Or.inl hnext)

theorem Closed.of_wins (side : Side) {turn : UInt32}
    (h : Closed before first stop (side.wins turn) after) :
    first ≤ turn.toNat ∧ turn.toNat < stop ∧ after.winner? = some side := by
  cases h with
  | won side' he hfirst hstop hwon =>
    obtain ⟨rfl, rfl⟩ := Side.wins_inj.mp he
    exact ⟨hfirst, hstop, hwon⟩
  | excluded he => exact absurd he Side.wins_ne_excluded
  | failed he => exact absurd he Side.wins_ne_fault
  | outOfTurns he => exact absurd he Side.wins_ne_outOfTurns

theorem Closed.of_fault {cause : PlayFault} (h : Closed before first stop (.fault cause) after) :
    ∃ turn failure, cause = .script turn failure ∧ first ≤ turn.toNat ∧ turn.toNat < stop := by
  cases h with
  | won side he => exact absurd he.symm Side.wins_ne_fault
  | excluded he | outOfTurns he => cases he
  | failed he hfirst hstop =>
    cases he
    exact ⟨_, _, rfl, hfirst, hstop⟩

theorem Closed.of_outOfTurns (h : Closed before first stop .outOfTurns after) (hlt : first < stop) :
    after.winner? = none := by
  cases h with
  | won side he => exact absurd he.symm Side.wins_ne_outOfTurns
  | excluded he | failed he => cases he
  | outOfTurns he hopen => exact hopen (Or.inr hlt)

end Closed

/-- An ending is true of the play that it ends: of its turns, of which there are `limit` at most,
and of the fights before and after it. -/
structure Agrees (limit : UInt32) (before after : Fight ρ) (ending : Ending) : Prop where
  victory : ∀ turn, ending = .victory turn →
    1 ≤ turn ∧ turn ≤ limit ∧ after.boss.hp ≤ 0 ∧ ∃ c ∈ after.party, 0 < c.hp
  wipe : ∀ turn, ending = .wipe turn →
    1 ≤ turn ∧ turn ≤ limit ∧ (∀ c ∈ after.party, c.hp ≤ 0) ∧ 0 < after.boss.hp
  outOfTurns : ending = .outOfTurns → 1 ≤ limit → 0 < after.boss.hp ∧ ∃ c ∈ after.party, 0 < c.hp
  fault : ∀ cause, ending = .fault cause → ∃ turn failure, cause = .script turn failure ∧
    turn ≤ limit ∧ (turn = 0 → after = before)

/-- What the turns of a play came to is what its ending says. That the other side stands once a side
has won is not known from the turns alone, and is assumed here. -/
theorem Closed.agrees {before after : Fight ρ} {limit : UInt32} {ending : Ending}
    (h : Closed before 1 (1 + limit.toNat) ending after)
    (hstanding : after.boss.isAlive = true ∨ after.partyAlive = true) :
    Agrees limit before after ending where
  victory := by
    rintro turn rfl
    obtain ⟨hfirst, hstop, hwon⟩ := Closed.of_wins .party h
    have hboss := Fight.winner?_eq_party.mp hwon
    have hparty : after.partyAlive = true := hstanding.resolve_left (by simp [hboss])
    exact ⟨UInt32.le_iff_toNat_le.mpr hfirst, UInt32.le_iff_toNat_le.mpr (by omega),
      Combatant.isAlive_eq_false_iff.mp hboss, Fight.partyAlive_iff.mp hparty⟩
  wipe := by
    rintro turn rfl
    obtain ⟨hfirst, hstop, hwon⟩ := Closed.of_wins .boss h
    obtain ⟨hboss, hparty⟩ := Fight.winner?_eq_boss.mp hwon
    exact ⟨UInt32.le_iff_toNat_le.mpr hfirst, UInt32.le_iff_toNat_le.mpr (by omega),
      Fight.partyAlive_eq_false_iff.mp hparty, Combatant.isAlive_iff.mp hboss⟩
  outOfTurns := by
    rintro rfl hlimit
    have hpos : 1 ≤ limit.toNat := UInt32.le_iff_toNat_le.mp hlimit
    obtain ⟨hboss, hparty⟩ := Fight.winner?_eq_none.mp (h.of_outOfTurns (by omega))
    exact ⟨Combatant.isAlive_iff.mp hboss, Fight.partyAlive_iff.mp hparty⟩
  fault := by
    rintro cause rfl
    obtain ⟨turn, failure, rfl, hfirst, hstop⟩ := h.of_fault
    refine ⟨turn, failure, rfl, UInt32.le_iff_toNat_le.mpr (by omega), ?_⟩
    -- the turns of a play are counted from one
    rintro rfl
    exact absurd hfirst (by decide)

/-! ## Elementary actions in a fight that is won

An attack of the boss needs a boss that stands, and a hit or a heal needs a member that does. What
is still possible against a side that is down does not bring it back. -/

variable [Dice ρ] {fight : Fight ρ} {side : Side}

/-- A fight that is won stays won by the same side. The boss does not recover, and over a party that
is down no elementary action is possible at all. -/
theorem Does.winner? {moment : Moment ρ} (h : Does fight moment)
    (hwon : fight.winner? = some side) : moment.fight.winner? = some side := by
  cases side with
  | party =>
    have hdown := Combatant.isAlive_eq_false_iff.mp (Fight.winner?_eq_party.mp hwon)
    exact Fight.winner?_eq_party.mpr
      (Combatant.isAlive_eq_false_iff.mpr (Int.le_trans h.boss_le hdown))
  | boss => exact absurd (Fight.standing_eq_nil (Fight.winner?_eq_boss.mp hwon).2) h.standing_ne_nil

theorem Trail.winner? {past : List (Moment ρ)} {now : Fight ρ} (h : Trail fight past now)
    (hwon : fight.winner? = some side) : now.winner? = some side := by
  induction h with
  | nil => exact hwon
  | snoc _ hd ih => exact hd.winner? ih

theorem Leads.winner? {outcome : Fight ρ × List Event} (h : Leads fight outcome)
    (hwon : fight.winner? = some side) : outcome.1.winner? = some side := by
  obtain ⟨_, htrail, -⟩ := h
  exact htrail.winner? hwon

/-! ## Turn by turn

The first question is what becomes of a fight that is won already, and the second what becomes of
one that is not. In both the turns are followed one by one with their exits. -/

section Turns

variable {strategy : Option Script.Program} {globals : Scope Action} {number : UInt32}

/-- The answer of the boss does not touch the boss, so whether it stands can be asked before or
after. -/
theorem Fight.boss_answered (fight : Fight ρ) (action : Action) :
    (fight.answered action).1.boss = (fight.acts action).1.boss := by
  unfold answered bossAttack
  cases (fight.acts action).1.standing <;> rfl

/-- What a play of a fight that a side has won comes to on a turn. -/
def Recurs (side : Side) (number : UInt32) (ending : Ending) : Prop :=
  ending = side.wins number ∨ ending = .excluded ∨
    ∃ failure, ending = .fault (.script number failure)

/-- A turn of a fight that is won is the last one. It can go on only if nobody has won afterwards.
-/
theorem Resolved.of_winner {turn : Turn ρ} (h : Resolved strategy globals number fight turn)
    (hwon : fight.winner? = some side) :
    ∃ course, turn = .last course ∧ Recurs side number course.ending := by
  -- the exits at which somebody has won say who, and by this it is the same side as before
  have hkept := h.leads.winner? hwon
  cases h with
  | @failed failure => exact ⟨_, rfl, Or.inr (Or.inr ⟨failure, rfl⟩)⟩
  | excluded => exact ⟨_, rfl, Or.inr (Or.inl rfl)⟩
  | victory hc hboss =>
    obtain rfl : Side.party = side :=
      Option.some.inj ((Fight.winner?_eq_party.mpr hboss).symm.trans hkept)
    exact ⟨_, rfl, Or.inl rfl⟩
  | wipe hc hboss hparty =>
    rw [← Fight.boss_answered] at hboss
    obtain rfl : Side.boss = side :=
      Option.some.inj ((Fight.winner?_eq_boss.mpr ⟨hboss, hparty⟩).symm.trans hkept)
    exact ⟨_, rfl, Or.inl rfl⟩
  | on hc hboss hparty =>
    rw [← Fight.boss_answered] at hboss
    exact absurd ((Fight.winner?_eq_none.mpr ⟨hboss, hparty⟩).symm.trans hkept) (by simp)

theorem turnsFrom_of_winner (limit : UInt32) (remaining : Nat) (hwon : fight.winner? = some side) :
    Recurs side number (turnsFrom strategy globals limit (remaining + 1) number fight).ending := by
  obtain ⟨course, hturn, hrecurs⟩ :=
    (takeTurn_resolved strategy globals number fight).of_winner hwon
  rw [turnsFrom_of_last hturn]
  exact hrecurs

/-- **What turns come to**, by induction on how many remain. The numbers of the turns are below a
bound that fits in 32 bits, so counting on from one turn to the next does not wrap around. -/
theorem closed_turnsFrom (strategy : Option Script.Program) (globals : Scope Action)
    (limit : UInt32) (remaining : Nat) (number : UInt32) (fight : Fight ρ)
    (hroom : number.toNat + remaining ≤ UInt32.size) :
    let course := turnsFrom strategy globals limit remaining number fight
    Closed fight number.toNat (number.toNat + remaining) course.ending course.fight := by
  induction remaining generalizing number fight with
  | zero =>
    refine .outOfTurns rfl fun hopen => hopen.resolve_right ?_
    exact Nat.lt_irrefl _
  | succ remaining ih =>
    have hstop : number.toNat < number.toNat + (remaining + 1) := by omega
    have hturn := takeTurn_resolved strategy globals number fight
    rw [turnsFrom]
    generalize takeTurn strategy globals number fight = turn at hturn
    -- an exit that ends the play is within its bounds, since this turn is the first of them
    cases hturn with
    | failed => exact .failed rfl (Nat.le_refl _) hstop
    | excluded => exact .excluded rfl
    | victory hc hboss =>
      exact .won .party rfl (Nat.le_refl _) hstop (Fight.winner?_eq_party.mpr hboss)
    | wipe hc hboss hparty =>
      rw [← Fight.boss_answered] at hboss
      exact .won .boss rfl (Nat.le_refl _) hstop (Fight.winner?_eq_boss.mpr ⟨hboss, hparty⟩)
    | @on action hc hboss hparty =>
      rw [← Fight.boss_answered] at hboss
      have hnext : (fight.answered action).1.winner? = none :=
        Fight.winner?_eq_none.mpr ⟨hboss, hparty⟩
      by_cases hlast : remaining = 0
      · -- the greatest number has no successor, and no turn is taken after it
        subst hlast
        exact .outOfTurns rfl fun _ => hnext
      · have hsucc : (number + 1).toNat = number.toNat + 1 := toNat_succ (by omega)
        -- the turns left are counted from the next number, up to the same bound
        have hrest := ih (number + 1) (fight.answered action).1 (by omega)
        rw [hsucc, show number.toNat + 1 + remaining = number.toNat + (remaining + 1) by omega]
          at hrest
        exact hrest.earlier hnext

end Turns

/-! ## Plays

A play is its initializer and then its turns from number one on. Where the initializer fails there
are no turns, so the fight is left as it was found. -/

namespace Matchup

variable {m : Matchup}

/-- A play whose initializer fails takes no turn: nothing has happened to the fight, and turn zero
is named. -/
theorem play_of_error {failure : Script.Failure}
    (h : globalsOf m.encounter.strategy = .error failure) (limit : UInt32) (fight : Fight ρ) :
    m.play limit fight = ⟨.fault (.script 0 failure), fight,
      [.opening m.encounter.name fight.party.length, .initializerFailed failure]⟩ := by
  unfold play
  rw [h]
  rfl

theorem play_of_ok {globals : Scope Action} (h : globalsOf m.encounter.strategy = .ok globals)
    (limit : UInt32) (fight : Fight ρ) :
    m.play limit fight = (turnsFrom m.encounter.strategy globals limit limit.toNat 1 fight).after
      [.opening m.encounter.name fight.party.length] := by
  unfold play
  rw [h]

theorem closed_play {globals : Scope Action} (h : globalsOf m.encounter.strategy = .ok globals)
    (limit : UInt32) (fight : Fight ρ) :
    Closed fight 1 (1 + limit.toNat) (m.play limit fight).ending (m.play limit fight).fight := by
  rw [play_of_ok h]
  refine closed_turnsFrom m.encounter.strategy globals limit limit.toNat 1 fight ?_
  have hlimit := limit.toNat_lt_size
  show 1 + limit.toNat ≤ UInt32.size
  omega

/-- A play agrees with the fight it leaves if one of the sides still stands there, which is true of
all fights that are played. -/
theorem agrees_play (limit : UInt32) {fight : Fight ρ}
    (hstanding : (m.play limit fight).fight.boss.isAlive = true ∨
      (m.play limit fight).fight.partyAlive = true) :
    Agrees limit fight (m.play limit fight).fight (m.play limit fight).ending := by
  cases hglobals : globalsOf m.encounter.strategy with
  | ok globals => exact (closed_play hglobals limit fight).agrees hstanding
  | error failure =>
    rw [play_of_error hglobals]
    refine ⟨by simp, by simp, by simp, ?_⟩
    rintro _ ⟨⟩
    exact ⟨0, failure, rfl, UInt32.le_iff_toNat_le.mpr (Nat.zero_le _), fun _ => rfl⟩

theorem ending_play_eq_iff {failure : Script.Failure} (limit : UInt32) (fight : Fight ρ) :
    (m.play limit fight).ending = .fault (.script 0 failure) ↔
      globalsOf m.encounter.strategy = .error failure := by
  cases hglobals : globalsOf m.encounter.strategy with
  | error failure' => simp [play_of_error hglobals]
  | ok globals =>
    refine iff_of_false (fun hending => ?_) (by simp)
    have hclosed := closed_play hglobals limit fight
    rw [hending] at hclosed
    obtain ⟨turn, _, hcause, hfirst, -⟩ := hclosed.of_fault
    cases hcause
    exact absurd hfirst (by decide)

/-- A play that was won had an initializer that did not fail, since that would have been its ending.
-/
theorem winner?_of_play {limit turn : UInt32} (h : (m.play limit fight).ending = side.wins turn) :
    (∃ globals, globalsOf m.encounter.strategy = .ok globals) ∧
      (m.play limit fight).fight.winner? = some side := by
  cases hglobals : globalsOf m.encounter.strategy with
  | error failure =>
    rw [play_of_error hglobals] at h
    exact absurd h.symm Side.wins_ne_fault
  | ok globals =>
    have hclosed := closed_play hglobals limit fight
    rw [h] at hclosed
    exact ⟨⟨globals, rfl⟩, (Closed.of_wins side hclosed).2.2⟩

theorem recurs_play {globals : Scope Action} (h : globalsOf m.encounter.strategy = .ok globals)
    (hwon : fight.winner? = some side) {limit : UInt32} (hlimit : 1 ≤ limit) :
    Recurs side 1 (m.play limit fight).ending := by
  have hpos : 1 ≤ limit.toNat := UInt32.le_iff_toNat_le.mp hlimit
  -- a limit of one turn or more leaves a first turn to be taken
  obtain ⟨remaining, hremaining⟩ := Nat.exists_eq_add_of_le' hpos
  rw [play_of_ok h, hremaining]
  exact turnsFrom_of_winner limit remaining hwon

end Matchup

namespace Bout

theorem matchup_afterAll (bout : Bout ρ) (limits : List UInt32) :
    (bout.afterAll limits).matchup = bout.matchup := by
  induction limits generalizing bout with
  | nil => rfl
  | cons limit rest ih => exact ih (bout.play limit).2

theorem afterAll_concat (bout : Bout ρ) (limits : List UInt32) (limit : UInt32) :
    bout.afterAll (limits ++ [limit]) = ((bout.afterAll limits).play limit).2 := by
  simp [afterAll]

/-- The boss and the party never fall both: each is only hit by the other while that one stands. -/
theorem standing_afterAll (m : Matchup) (dice : ρ) (logging : Bool) (limits : List UInt32) :
    let fight := ((m.bout dice logging).afterAll limits).fight
    fight.boss.isAlive = true ∨ fight.partyAlive = true := by
  obtain ⟨_, htrail, -⟩ := (m.bout dice logging).leads_afterAll limits
  exact htrail.keeps.standing

end Bout

/-- **The ending of a play agrees with the fight it leaves**, whatever was played before, and the
initializer of the strategy fails exactly if the ending is that it failed. Once a side has won,
every later play of a turn or more comes to the same on its first turn, unless the strategy excludes
the run or fails on that turn. -/
theorem ending_agrees_with_fight (m : Matchup) (dice : ρ) (logging : Bool) (earlier : List UInt32)
    (limit : UInt32) :
    let before := (m.bout dice logging).afterAll earlier
    let ending := (before.play limit).1
    let after := (before.play limit).2
    Agrees limit before.fight after.fight ending ∧
    (∀ failure, ending = .fault (.script 0 failure) ↔
      globalsOf m.encounter.strategy = .error failure) ∧
    ∀ later again, 1 ≤ again →
      let repeated := ((after.afterAll later).play again).1
      (∀ turn, ending = .victory turn → Recurs .party 1 repeated) ∧
      (∀ turn, ending = .wipe turn → Recurs .boss 1 repeated) := by
  intro before ending after
  have hmatchup : before.matchup = m := Bout.matchup_afterAll _ earlier
  have hstanding := Bout.standing_afterAll m dice logging (earlier ++ [limit])
  rw [Bout.afterAll_concat] at hstanding
  -- later plays are on the same matchup, so their initializer does what that of this play did
  have hrecurs : ∀ side turn, ending = side.wins turn → ∀ later again, 1 ≤ again →
      Recurs side 1 ((after.afterAll later).play again).1 := by
    intro side turn hwins later again hagain
    obtain ⟨⟨globals, hglobals⟩, hwon⟩ := Matchup.winner?_of_play hwins
    have hlater : (after.afterAll later).matchup = before.matchup :=
      Bout.matchup_afterAll after later
    rw [← hlater] at hglobals
    exact Matchup.recurs_play hglobals ((after.leads_afterAll later).winner? hwon) hagain
  refine ⟨Matchup.agrees_play limit hstanding, ?_, ?_⟩
  · intro failure
    rw [← hmatchup]
    exact Matchup.ending_play_eq_iff limit before.fight
  · intro later again hagain
    refine ⟨?_, ?_⟩
    · exact fun turn hvictory => hrecurs .party turn hvictory later again hagain
    · exact fun turn hwipe => hrecurs .boss turn hwipe later again hagain

end Arena
end CombatTrials
