import CombatTrials.Proofs.Arena.Horizon
import CombatTrials.Proofs.Data.Exchange

/-!
# Fights come to an end

A hit takes one hit point at least, however strong the defense that it meets. So on every turn that
goes on the boss takes something from the party, and a party that attacks takes something from the
boss. What is left of a side, as a natural number, is then a bound on the number of turns that can
still be taken (`lt_of_outOfTurns`). Healing is the one thing that gives hit points back.

What a strategy decides on the turns of a play is listed by `Matchup.decisions`. The list goes as
far as the play does: a play that a turn excluded or broke off has that in it (`mem_decisionsFrom`).
-/

namespace CombatTrials
namespace Arena

open Chance (Dice)
open Data (sumOf sumOf_set sumOf_map le_sumOf)
open Script (Scope Failure)
open Stage (Ending PlayFault)

/-! ## What is left of a side

Hit points are integers, and an overkill leaves them below zero. The measures count what is left in
natural numbers, where nothing is left of anybody who is down. -/

namespace Combatant

theorem hpLeft_pos {c : Combatant} (h : c.isAlive = true) : 0 < c.hpLeft := by
  have hpos := isAlive_iff.mp h
  unfold hpLeft
  omega

/-- A combatant that stands feels every hit, even one that would have been its end long before: what
is left of it stops at zero, and it was above zero. -/
theorem hpLeft_hurt_lt {c : Combatant} (h : c.isAlive = true) {damage : Int} (hd : 1 ≤ damage) :
    (c.hurt damage).hpLeft < c.hpLeft := by
  have hpos := isAlive_iff.mp h
  simp only [hpLeft, hurt]
  omega

end Combatant

variable {ρ : Type}

namespace Fight

variable {fight : Fight ρ}

/-- The hit points that are left of the party. -/
def partyLeft (fight : Fight ρ) : Nat := sumOf Combatant.hpLeft fight.party

/-- The hit points that are left of the boss. -/
def bossLeft (fight : Fight ρ) : Nat := fight.boss.hpLeft

theorem partyLeft_pos (h : fight.partyAlive = true) : 0 < fight.partyLeft := by
  obtain ⟨c, hc, hup⟩ := List.any_eq_true.mp h
  exact Nat.lt_of_lt_of_le (Combatant.hpLeft_pos hup) (le_sumOf Combatant.hpLeft hc)

theorem partyLeft_start (m : Matchup) (dice : ρ) :
    (start m dice).partyLeft = sumOf (fun f => f.hp.toNat) m.encounter.party := by
  unfold partyLeft start
  rw [sumOf_map]
  rfl

theorem standing_ne_nil (h : fight.partyAlive = true) : fight.standing ≠ [] := by
  obtain ⟨c, hc, hup⟩ := List.any_eq_true.mp h
  obtain ⟨seat, rfl⟩ := List.mem_iff_get.mp hc
  exact List.ne_nil_of_mem (mem_standing.mpr hup)

variable [Dice ρ]

/-! ## What an action takes

A hit that lands is felt by its side and by nobody else. What has to be seen is that one lands: the
boss finds a victim wherever somebody stands, and of a party that attacks the first member that
stands hits for certain, since the boss is up when its turn comes. -/

/-- The boss finds somebody to attack wherever somebody stands. -/
theorem exists_target (h : fight.partyAlive = true) :
    ∃ seat dice, fight.target? = some (seat, dice) := by
  unfold target?
  cases hs : fight.standing with
  | nil => exact absurd hs (standing_ne_nil h)
  | cons first rest => exact ⟨_, _, rfl⟩

/-- The boss takes something from a party of which somebody stands. -/
theorem partyLeft_bossAttack_lt (guarding : Bool) (h : fight.partyAlive = true) :
    (fight.bossAttack guarding).1.partyLeft < fight.partyLeft := by
  obtain ⟨seat, thrown, htarget⟩ := exists_target h
  cases hroll : rollDamage fight.boss.attack (fight.member seat).defense thrown with
  | mk damage dice =>
    rw [bossAttack_of_target? guarding htarget, bossHits_eq hroll]
    have hhit : 1 ≤ soften guarding damage := one_le_soften (one_le_of_roll hroll)
    -- one summand of the party gets smaller and the others stay, whatever the boss rolled
    have hlost := Combatant.hpLeft_hurt_lt (isAlive_of_target? htarget) hhit
    have hseat : fight.party[(seat : Nat)]? = some (fight.member seat) :=
      List.getElem?_eq_getElem seat.isLt
    have hsum :=
      sumOf_set Combatant.hpLeft hseat ((fight.member seat).hurt (soften guarding damage))
    simp only [partyLeft, replace]
    omega

theorem memberHits_of_not {c : Combatant} (h : ¬ (c.isAlive && fight.boss.isAlive) = true) :
    fight.memberHits c = (fight, []) := if_neg h

theorem memberHits_of_roll {c : Combatant} {damage : Int} {dice : ρ} (hc : c.isAlive = true)
    (hboss : fight.boss.isAlive = true)
    (hroll : rollDamage c.attack fight.boss.defense fight.dice = (damage, dice)) :
    fight.memberHits c = ({ fight with boss := fight.boss.hurt damage, dice := dice },
      [.hit c.name fight.boss.name damage (fight.boss.hurt damage).hpLeft]) := by
  unfold memberHits
  rw [if_pos (by rw [hc, hboss]; rfl), hroll]
  rfl

theorem bossLeft_memberHits_lt {c : Combatant} (hc : c.isAlive = true)
    (hboss : fight.boss.isAlive = true) : (fight.memberHits c).1.bossLeft < fight.bossLeft := by
  cases hroll : rollDamage c.attack fight.boss.defense fight.dice with
  | mk damage dice =>
    rw [memberHits_of_roll hc hboss hroll]
    exact Combatant.hpLeft_hurt_lt hboss (one_le_of_roll hroll)

/-- A member that is down, or that finds the boss down, takes nothing. It gives nothing back either.
-/
theorem bossLeft_memberHits_le (c : Combatant) :
    (fight.memberHits c).1.bossLeft ≤ fight.bossLeft := by
  by_cases h : (c.isAlive && fight.boss.isAlive) = true
  · obtain ⟨hc, hboss⟩ := Bool.and_eq_true_iff.mp h
    exact Nat.le_of_lt (bossLeft_memberHits_lt hc hboss)
  · exact Nat.le_of_eq (congrArg (fun after => after.1.bossLeft) (memberHits_of_not h))

theorem bossLeft_hitsOf_le (fight : Fight ρ) (members : List Combatant) :
    (fight.hitsOf members).1.bossLeft ≤ fight.bossLeft := by
  induction members generalizing fight with
  | nil => exact Nat.le_refl _
  | cons c rest ih => exact Nat.le_trans (ih (fight.memberHits c).1) (bossLeft_memberHits_le c)

/-- The first member that stands is the one to count on: before it nothing changes. -/
theorem bossLeft_hitsOf_lt (hboss : fight.boss.isAlive = true) {members : List Combatant}
    (h : ∃ c ∈ members, c.isAlive = true) : (fight.hitsOf members).1.bossLeft < fight.bossLeft := by
  induction members with
  | nil => simp at h
  | cons c rest ih =>
    -- the members before the first that stands leave the fight as it was, and those behind it can
    -- only take more
    by_cases hc : c.isAlive = true
    · exact Nat.lt_of_le_of_lt (bossLeft_hitsOf_le (fight.memberHits c).1 rest)
        (bossLeft_memberHits_lt hc hboss)
    · have hstill : fight.memberHits c = (fight, []) := memberHits_of_not (by simp [hc])
      have hrest : ∃ c ∈ rest, c.isAlive = true := by
        obtain ⟨c', hc', hup⟩ := h
        rcases List.mem_cons.mp hc' with rfl | hc'
        · exact absurd hup hc
        · exact ⟨c', hc', hup⟩
      rw [hitsOf, hstill]
      exact ih hrest

theorem bossLeft_partyAttack_lt (h : fight.winner? = none) :
    (fight.partyAttack).1.bossLeft < fight.bossLeft := by
  obtain ⟨hboss, hparty⟩ := winner?_eq_none.mp h
  apply bossLeft_hitsOf_lt hboss
  exact List.any_eq_true.mp hparty

theorem party_hitsOf (fight : Fight ρ) (members : List Combatant) :
    (fight.hitsOf members).1.party = fight.party := by
  induction members generalizing fight with
  | nil => rfl
  | cons c rest ih => exact (ih (fight.memberHits c).1).trans (party_memberHits fight c)

theorem party_acts {action : Action} (h : action ≠ .heal) :
    (fight.acts action).1.party = fight.party := by
  cases action with
  | attack => exact party_hitsOf fight fight.party
  | guard | exclude => rfl
  | heal => exact absurd rfl h

end Fight

/-! ## What is decided on the turns of a play

The bounds are for strategies that do not heal, or that attack, on the turns that a play does take.
What a strategy would do on other turns of other fights is not asked. So the decisions are listed in
step with the turns. -/

section Decisions

variable [Dice ρ]

/-- What a strategy decides on turns from one of some number on, as long as they go on. -/
def decisionsFrom (strategy : Option Script.Program) (globals : Scope Action) :
    (remaining : Nat) → (number : UInt32) → Fight ρ → List (Except Failure Action)
  | 0, _, _ => []
  | remaining + 1, number, fight =>
    choose strategy globals number fight ::
      match takeTurn strategy globals number fight with
      | .last _ => []
      | .on next _ => decisionsFrom strategy globals remaining (number + 1) next

/-- What the strategy decides on the turns of a play. -/
def Matchup.decisions (m : Matchup) (limit : UInt32) (fight : Fight ρ) :
    List (Except Failure Action) :=
  match globalsOf m.encounter.strategy with
  | .error _ => []
  | .ok globals => decisionsFrom m.encounter.strategy globals limit.toNat 1 fight

variable {strategy : Option Script.Program} {globals : Scope Action} {number : UInt32}
  {fight : Fight ρ}

theorem decisionsFrom_of_on {next : Fight ρ} {events : List Event}
    (h : takeTurn strategy globals number fight = .on next events) (remaining : Nat) :
    decisionsFrom strategy globals (remaining + 1) number fight =
      choose strategy globals number fight ::
        decisionsFrom strategy globals remaining (number + 1) next := by
  rw [decisionsFrom, h]

/-- A play that a decision ended has that decision among its own. -/
theorem mem_decisionsFrom (strategy : Option Script.Program) (globals : Scope Action)
    (limit : UInt32) (remaining : Nat) (number : UInt32) (fight : Fight ρ) :
    let ending := (turnsFrom strategy globals limit remaining number fight).ending
    let decisions := decisionsFrom strategy globals remaining number fight
    (ending = .excluded → .ok .exclude ∈ decisions) ∧
    (∀ cause, ending = .fault cause → ∃ failure, .error failure ∈ decisions) := by
  -- by induction on the turns that remain, the list growing with the play
  induction remaining generalizing number fight with
  | zero => exact ⟨nofun, nofun⟩
  | succ remaining ih =>
    have hturn := takeTurn_resolved strategy globals number fight
    cases ht : takeTurn strategy globals number fight with
    | on next events =>
      obtain ⟨hexcluded, hfault⟩ := ih (number + 1) next
      rw [turnsFrom_of_on ht, decisionsFrom_of_on ht]
      refine ⟨?_, ?_⟩
      · intro h
        exact List.mem_cons_of_mem _ (hexcluded h)
      · intro cause h
        obtain ⟨failure, hmem⟩ := hfault cause h
        exact ⟨failure, List.mem_cons_of_mem _ hmem⟩
    | last course =>
      rw [ht] at hturn
      rw [turnsFrom_of_last ht, decisionsFrom]
      cases hturn with
      -- Only a decision or its failure ends a play in one of these two ways. Where a side has won,
      -- the ending says so and neither is claimed.
      | @failed failure hc => exact ⟨nofun, fun _ _ => ⟨failure, hc ▸ List.mem_cons_self⟩⟩
      | excluded hc => exact ⟨fun _ => hc ▸ List.mem_cons_self, nofun⟩
      | victory | wipe => exact ⟨nofun, nofun⟩

/-- A party without a strategy attacks on every turn. -/
theorem eq_attack_of_mem_decisionsFrom {remaining : Nat} {decision : Except Failure Action}
    (h : decision ∈ decisionsFrom none globals remaining number fight) :
    decision = .ok .attack := by
  induction remaining generalizing number fight with
  | zero => exact absurd h List.not_mem_nil
  | succ remaining ih =>
    rcases List.mem_cons.mp h with rfl | h
    · rfl
    · split at h
      · exact absurd h List.not_mem_nil
      · exact ih h

/-! ## Turns against a measure

Both bounds are one argument. It needs a measure that is positive while nobody has won, and that any
turn of the right kind makes smaller; the two measures of the sides are instances. -/

/-- The party loses something on every turn that goes on and does not heal. -/
theorem Resolved.partyLeft_lt {next : Fight ρ} {events : List Event}
    (h : Resolved strategy globals number fight (.on next events)) (hopen : fight.winner? = none)
    (hheal : choose strategy globals number fight ≠ .ok .heal) :
    next.partyLeft < fight.partyLeft := by
  cases h with
  | @on action hc hboss hparty =>
    have hnot : action ≠ .heal := fun heq => hheal (heq ▸ hc)
    have hacts := fight.party_acts hnot
    have halive : (fight.acts action).1.partyAlive = true := by
      rw [Fight.partyAlive, hacts]
      exact (Fight.winner?_eq_none.mp hopen).2
    -- the party is at its old strength when the boss attacks, whatever else the action did
    have hsame : (fight.acts action).1.partyLeft = fight.partyLeft := by
      rw [Fight.partyLeft, hacts, Fight.partyLeft]
    rw [← hsame]
    exact Fight.partyLeft_bossAttack_lt _ halive

/-- The boss loses something on every turn on which it is attacked. -/
theorem Resolved.bossLeft_lt {next : Fight ρ} {events : List Event}
    (h : Resolved strategy globals number fight (.on next events)) (hopen : fight.winner? = none)
    (hattack : choose strategy globals number fight = .ok .attack) :
    next.bossLeft < fight.bossLeft := by
  cases h with
  | @on action hc hboss hparty =>
    obtain rfl : action = .attack := Except.ok.inj (hc.symm.trans hattack)
    rw [Fight.bossLeft, Fight.boss_answered]
    exact Fight.bossLeft_partyAttack_lt hopen

/-- A turn goes on only if both sides stand at its end, so an undecided fight is handed to the next.
-/
theorem Resolved.winner?_of_on {next : Fight ρ} {events : List Event}
    (h : Resolved strategy globals number fight (.on next events)) : next.winner? = none := by
  cases h with
  | on hc hboss hparty =>
    rw [← Fight.boss_answered] at hboss
    exact Fight.winner?_eq_none.mpr ⟨hboss, hparty⟩

/-- **A measure of the fight bounds the turns** that a play can take without an end, if there is
something left of it while nobody has won, and every turn that goes on after a decision of some kind
takes something of it. -/
theorem lt_of_outOfTurns (measure : Fight ρ → Nat) (kind : Except Failure Action → Prop)
    (hpos : ∀ fight, fight.winner? = none → 0 < measure fight)
    (hless : ∀ number fight next events, Resolved strategy globals number fight (.on next events) →
      fight.winner? = none → kind (choose strategy globals number fight) →
        measure next < measure fight)
    {limit : UInt32} {remaining : Nat} {number : UInt32} {fight : Fight ρ}
    (hopen : fight.winner? = none)
    (hkind : ∀ decision ∈ decisionsFrom strategy globals remaining number fight, kind decision)
    (h : (turnsFrom strategy globals limit remaining number fight).ending = .outOfTurns) :
    remaining < measure fight := by
  induction remaining generalizing number fight with
  | zero => exact hpos fight hopen
  -- the measure falls by one at least on this turn, and what is left of it bounds the turns to come
  | succ remaining ih =>
    have hturn := takeTurn_resolved strategy globals number fight
    cases ht : takeTurn strategy globals number fight with
    | last course =>
      rw [ht] at hturn
      rw [turnsFrom_of_last ht] at h
      exact absurd h hturn.ending_ne_outOfTurns
    | on next events =>
      rw [ht] at hturn
      rw [turnsFrom_of_on ht] at h
      rw [decisionsFrom_of_on ht] at hkind
      obtain ⟨hfirst, hrest⟩ := List.forall_mem_cons.mp hkind
      have hnext := ih hturn.winner?_of_on hrest h
      have hlost := hless number fight next events hturn hopen hfirst
      omega

theorem lt_partyLeft_of_outOfTurns {limit : UInt32} {remaining : Nat} (hopen : fight.winner? = none)
    (hheal : .ok .heal ∉ decisionsFrom strategy globals remaining number fight)
    (h : (turnsFrom strategy globals limit remaining number fight).ending = .outOfTurns) :
    remaining < fight.partyLeft := by
  apply lt_of_outOfTurns Fight.partyLeft (· ≠ .ok .heal) ?_ ?_ hopen ?_ h
  · intro fight hopen
    exact Fight.partyLeft_pos (Fight.winner?_eq_none.mp hopen).2
  · intro number fight next events hturn hopen hdecision
    exact hturn.partyLeft_lt hopen hdecision
  · rintro decision hmem rfl
    exact hheal hmem

theorem lt_bossLeft_of_outOfTurns {limit : UInt32} {remaining : Nat} (hopen : fight.winner? = none)
    (hattack : ∀ decision ∈ decisionsFrom strategy globals remaining number fight,
      decision = .ok .attack)
    (h : (turnsFrom strategy globals limit remaining number fight).ending = .outOfTurns) :
    remaining < fight.bossLeft := by
  apply lt_of_outOfTurns Fight.bossLeft (· = .ok .attack) ?_ ?_ hopen hattack h
  · intro fight hopen
    exact Combatant.hpLeft_pos (Fight.winner?_eq_none.mp hopen).1
  · intro number fight next events hturn hopen hdecision
    exact hturn.bossLeft_lt hopen hdecision

/-! ## Without a strategy

A party without a strategy attacks on every turn, so it makes both measures smaller at once, and the
smaller of the two is enough. -/

/-- A party that only attacks wins or falls within as many turns as either side has hit points. -/
theorem turnsFrom_none_ending (globals : Scope Action) (limit : UInt32) {remaining : Nat}
    (hopen : fight.winner? = none) (hroom : 1 + remaining ≤ UInt32.size)
    (hle : min fight.partyLeft fight.bossLeft ≤ remaining) :
    ∃ side : Side, ∃ turn, (turnsFrom none globals limit remaining 1 fight).ending =
      side.wins turn ∧
      turn.toNat ≤ min fight.partyLeft fight.bossLeft := by
  generalize hbound : min fight.partyLeft fight.bossLeft = bound at hle ⊢
  have hattack : ∀ decision ∈ decisionsFrom none globals bound 1 fight, decision = .ok .attack :=
    fun decision => eq_attack_of_mem_decisionsFrom
  -- so many turns are enough, and more do not change what came of them
  have hended : (turnsFrom none globals limit bound 1 fight).ending ≠ .outOfTurns := by
    intro h
    have hheal : .ok .heal ∉ decisionsFrom none globals bound 1 fight :=
      fun hmem => nomatch hattack _ hmem
    have hparty := lt_partyLeft_of_outOfTurns hopen hheal h
    have hboss := lt_bossLeft_of_outOfTurns hopen hattack h
    omega
  have hsame :
      turnsFrom none globals limit remaining 1 fight =
        turnsFrom none globals limit bound 1 fight := by
    obtain ⟨more, rfl⟩ := Nat.exists_eq_add_of_le hle
    rcases turnsFrom_add none globals limit limit bound more 1 fight with
      ⟨-, hlong⟩ | ⟨last, events, hshort, -⟩
    · exact hlong
    · exact absurd (congrArg Course.ending hshort) hended
  rw [hsame]
  obtain ⟨hexcluded, hfault⟩ := mem_decisionsFrom none globals limit bound 1 fight
  have hone : (1 : UInt32).toNat = 1 := rfl
  cases closed_turnsFrom none globals limit bound 1 fight (by omega) with
  | won side he hfirst hstop => exact ⟨side, _, he, by omega⟩
  | excluded he => exact nomatch hattack _ (hexcluded he)
  | failed he =>
    obtain ⟨failure, hmem⟩ := hfault _ he
    exact nomatch hattack _ hmem
  | outOfTurns he => exact absurd he hended

end Decisions

/-- Nobody has won at the start, for everybody has a hit point at least and a party has a member. -/
theorem Fight.winner?_start (m : Matchup) (dice : ρ) : (start m dice).winner? = none := by
  have hup : ∀ c ∈ (start m dice).everybody, c.isAlive = true := by
    intro c hc
    obtain ⟨hfull, hpos⟩ := full_start m dice c hc
    exact Combatant.isAlive_iff.mpr (by omega)
  refine winner?_eq_none.mpr ⟨hup _ (boss_mem_everybody _), ?_⟩
  exact partyAlive_of_seat _ (hup _ (member_mem_everybody _ (firstSeat _)))

/-- **Fights come to an end**, however the dice fall and however strong the defenses are. A play
that starts a fight and has as many turns as the party has hit points does not run out of them,
unless the strategy decides to heal on one of its turns. Without a strategy it is won or lost within
as many turns as either side has hit points, if it has so many. -/
theorem fights_are_bounded [Dice ρ] (m : Matchup) (dice : ρ) (logging : Bool) (limit : UInt32) :
    let party := sumOf (fun f => f.hp.toNat) m.encounter.party
    let boss := m.encounter.boss.hp.toNat
    let ending := ((m.bout dice logging).play limit).1
    (.ok .heal ∉ m.decisions limit (.start m dice) → party ≤ limit.toNat → ending ≠ .outOfTurns) ∧
    (m.encounter.strategy = none → min party boss ≤ limit.toNat →
      ∃ turn, (ending = .victory turn ∨ ending = .wipe turn) ∧ turn.toNat ≤ min party boss) := by
  intro party boss ending
  have hopen := Fight.winner?_start m dice
  have hparty : (Fight.start m dice).partyLeft = party := Fight.partyLeft_start m dice
  have hboss : (Fight.start m dice).bossLeft = boss := rfl
  have hlimit := limit.toNat_lt_size
  refine ⟨?_, ?_⟩
  · intro hheal hle hmet
    have hplay : (m.play limit (.start m dice)).ending = .outOfTurns := hmet
    cases hglobals : globalsOf m.encounter.strategy with
    | error failure =>
      rw [Matchup.play_of_error hglobals] at hplay
      cases hplay
    | ok globals =>
      rw [Matchup.play_of_ok hglobals] at hplay
      simp only [Matchup.decisions, hglobals] at hheal
      -- one turn for each hit point of the party, and none is left over
      have hlt := lt_partyLeft_of_outOfTurns hopen hheal hplay
      omega
  · intro hnone hle
    have hglobals : globalsOf m.encounter.strategy = .ok {} := by rw [hnone]; rfl
    have hplay : ending = (turnsFrom none {} limit limit.toNat 1 (Fight.start m dice)).ending := by
      show (m.play limit (.start m dice)).ending = _
      rw [Matchup.play_of_ok hglobals, hnone]
      rfl
    have hroom : 1 + limit.toNat ≤ UInt32.size := by omega
    rw [← hparty, ← hboss] at hle ⊢
    -- without a strategy there is no initializer that could fail, so the play is its turns
    obtain ⟨side, turn, hwins, hturn⟩ := turnsFrom_none_ending {} limit hopen hroom hle
    refine ⟨turn, ?_, hturn⟩
    rw [hplay, hwins]
    cases side with
    | party => exact Or.inl rfl
    | boss => exact Or.inr rfl

end Arena
end CombatTrials
