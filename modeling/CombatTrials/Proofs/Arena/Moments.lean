import CombatTrials.Arena.Fight
import CombatTrials.Proofs.Numeric.Sign

/-!
# One hit or heal at a time

Whatever a play does to its fight, it does in elementary actions: a member hits the boss, a member
is healed, or the boss hits a member. `Does` is one of them, by the rules and with the dice as they
lie, and a `Moment` is the fight it leaves together with what is told of it. A `Trail` is a sequence
of moments, each of which follows from the one before.

Two things are shown of them. `Does.change` says everything an elementary action can change, in
terms of `everybody`: one combatant, which stands, is hit for one point at least or is a member and
is healed. What holds over whole fights follows from this and never opens the rules again. And the
rules do nothing else: each of the three actions of a turn `Leads` from fight to fight along a trail
whose moments are the hits and heals it tells of, in that order.
-/

namespace CombatTrials
namespace Arena

open Chance (Dice)

/-! ## Combatants

The hit points of a combatant are the one thing about it that changes, so what does not change can
be said at once, as its profile. -/

namespace Combatant

variable {c : Combatant}

/-- What no hit and no heal changes. -/
def profile (c : Combatant) : String × Nat × Nat × Nat := (c.name, c.maxHp, c.attack, c.defense)

@[simp]
theorem profile_hurt (c : Combatant) (damage : Int) : (c.hurt damage).profile = c.profile := rfl

@[simp]
theorem profile_heal (c : Combatant) : c.heal.profile = c.profile := rfl

theorem isAlive_iff : c.isAlive = true ↔ 0 < c.hp := by simp [isAlive]

theorem isAlive_eq_false_iff : c.isAlive = false ↔ c.hp ≤ 0 := by simp [isAlive]

theorem healing_le (c : Combatant) : c.healing ≤ c.maxHp - c.hp := Int.min_le_right _ _

/-- A heal takes nothing away: a fifth of a natural number has no sign, as a double as little as
otherwise. -/
theorem healing_nonneg (h : c.hp ≤ c.maxHp) : 0 ≤ c.healing := by
  have hfifth : Numeric.signBit 0.2 = false := by decide +kernel
  have hshare :=
    Numeric.nearestInt_nonneg (Numeric.signBit_mul (Numeric.signBit_ofNat c.maxHp) hfifth)
  have hmissing : 0 ≤ (c.maxHp : Int) - c.hp := by omega
  exact Int.le_min.mpr ⟨hshare, hmissing⟩

end Combatant

variable {ρ : Type}

namespace Fight

variable {fight : Fight ρ}

/-! ## Places

Members have seats and the boss has none. To say what a whole fight keeps they are numbered alike,
the boss behind the party. -/

/-- The party in formation order, and the boss behind it. -/
def everybody (fight : Fight ρ) : List Combatant := fight.party ++ [fight.boss]

theorem everybody_seat (fight : Fight ρ) (seat : fight.Seat) :
    fight.everybody[(seat : Nat)]? = some (fight.member seat) := by
  rw [everybody, List.getElem?_append_left seat.isLt]
  exact List.getElem?_eq_getElem seat.isLt

theorem everybody_boss (fight : Fight ρ) :
    fight.everybody[fight.party.length]? = some fight.boss := by
  simp [everybody]

/-- Somebody stands at a place. -/
def Stands (fight : Fight ρ) (place : Nat) : Prop :=
  ∃ c, fight.everybody[place]? = some c ∧ 0 < c.hp

theorem stands_seat (fight : Fight ρ) {seat : fight.Seat} (h : (fight.member seat).isAlive = true) :
    fight.Stands seat :=
  ⟨fight.member seat, fight.everybody_seat seat, Combatant.isAlive_iff.mp h⟩

theorem stands_boss (fight : Fight ρ) (h : fight.boss.isAlive = true) :
    fight.Stands fight.party.length :=
  ⟨fight.boss, fight.everybody_boss, Combatant.isAlive_iff.mp h⟩

/-- What is done to the boss is done at the last place, and the dice are nobody's place. -/
theorem everybody_hurt_boss (fight : Fight ρ) (boss : Combatant) (dice : ρ) :
    ({ fight with boss := boss, dice := dice } : Fight ρ).everybody =
      fight.everybody.set fight.party.length boss := by
  simp [everybody]

theorem everybody_replace (fight : Fight ρ) (seat : fight.Seat) (c : Combatant) :
    (fight.replace seat c).everybody = fight.everybody.set seat c := by
  simp [everybody, replace, seat.isLt]

/-! ## Choosing a member

Both choices are among those who stand: the heal takes the weakest of them, and the boss any. -/

theorem mem_standing {seat : fight.Seat} :
    seat ∈ fight.standing ↔ (fight.member seat).isAlive = true := by
  simp [standing]

/-- Whoever comes out of a comparison of keys was compared, the first of all included. -/
theorem leastBy_mem {α : Type} (key : α → Int) (best : α) (l : List α) :
    leastBy key best l ∈ best :: l := by
  induction l generalizing best with
  | nil => exact List.mem_singleton_self best
  | cons a rest ih =>
    rw [leastBy]
    rcases List.mem_cons.mp (ih (if key a < key best then a else best)) with h | h
    · rw [h]
      split <;> simp
    · exact List.mem_cons_of_mem _ (List.mem_cons_of_mem _ h)

/-- The member that is healed stands: the weakest is looked for among those who do. -/
theorem isAlive_of_weakest? {seat : fight.Seat} (h : fight.weakest? = some seat) :
    (fight.member seat).isAlive = true := by
  rw [← mem_standing]
  unfold weakest? at h
  cases hs : fight.standing with
  | nil => simp [hs] at h
  | cons first rest =>
    rw [hs] at h
    exact Option.some.inj h ▸ leastBy_mem _ first rest

variable [Dice ρ]

/-- Whom the boss attacks, and the dice after choosing. -/
def target? (fight : Fight ρ) : Option (fight.Seat × ρ) :=
  match fight.standing with
  | [] => none
  | seat :: rest =>
    let (choice, dice) := Dice.pick rest.length fight.dice
    some ((seat :: rest).get choice, dice)

theorem isAlive_of_target? {seat : fight.Seat} {dice : ρ} (h : fight.target? = some (seat, dice)) :
    (fight.member seat).isAlive = true := by
  rw [← mem_standing]
  unfold target? at h
  cases hs : fight.standing with
  | nil => simp [hs] at h
  | cons first rest =>
    rw [hs] at h
    obtain ⟨rfl, -⟩ := Prod.mk.inj (Option.some.inj h)
    exact List.get_mem _ _

theorem bossAttack_of_none (guarding : Bool) (h : fight.target? = none) :
    fight.bossAttack guarding = (fight, []) := by
  unfold target? at h
  unfold bossAttack
  cases hs : fight.standing with
  | nil => rfl
  | cons first rest => simp [hs] at h

/-- The attack of the boss in two steps: whom it attacks, and what becomes of it. -/
theorem bossAttack_of_target? (guarding : Bool) {seat : fight.Seat} {dice : ρ}
    (h : fight.target? = some (seat, dice)) :
    fight.bossAttack guarding = fight.bossHits guarding seat dice := by
  unfold target? at h
  unfold bossAttack
  cases hs : fight.standing with
  | nil => simp [hs] at h
  | cons first rest =>
    rw [hs] at h
    obtain ⟨rfl, rfl⟩ := Prod.mk.inj (Option.some.inj h)
    rfl

/-- The damage of the boss on a party that guards or does not. -/
def soften (guarding : Bool) (damage : Int) : Int := if guarding then max 1 (damage / 2) else damage

theorem bossHits_eq {guarding : Bool} {seat : fight.Seat} {damage : Int} {thrown dice : ρ}
    (h : rollDamage fight.boss.attack (fight.member seat).defense thrown = (damage, dice)) :
    fight.bossHits guarding seat thrown =
      let victim := (fight.member seat).hurt (soften guarding damage)
      ({ fight.replace seat victim with dice := dice },
        .hit fight.boss.name (fight.member seat).name (soften guarding damage) victim.hpLeft ::
          if victim.isAlive then [] else [.fell victim.name]) := by
  simp only [bossHits, h]
  exact congrArg (Prod.mk _) (apply_ite (List.cons _) _ _ _).symm

end Fight

/-! ## Elementary actions

The rules are opened here and in the section on the actions of a turn below, and nowhere else in
what is proved of whole fights. `Does` repeats them for a single action, and `Does.change` is what
everything else goes by. -/

/-- A fight, and the elementary action that led to it. -/
structure Moment (ρ : Type) where
  /-- The place among everybody of the one who acted. Who is healed acts itself. -/
  actor : Nat
  /-- The place among everybody of the one who was hit or healed. -/
  place : Nat
  event : Event
  fight : Fight ρ

section Does

variable [Dice ρ]

/-- An elementary action. -/
inductive Does (fight : Fight ρ) : Moment ρ → Prop
  /-- A member that stands hits the boss. -/
  | strike {seat : fight.Seat} {damage : Int} {dice : ρ} (hup : (fight.member seat).isAlive = true)
      (hboss : fight.boss.isAlive = true)
      (hroll : rollDamage (fight.member seat).attack fight.boss.defense fight.dice =
        (damage, dice)) :
      Does fight ⟨seat, fight.party.length,
        .hit (fight.member seat).name fight.boss.name damage (fight.boss.hurt damage).hpLeft,
        { fight with boss := fight.boss.hurt damage, dice := dice }⟩
  /-- The weakest member that stands is healed. -/
  | heal {seat : fight.Seat} (hseat : fight.weakest? = some seat) :
      Does fight ⟨seat, seat,
        .healed (fight.member seat).name (fight.member seat).healing (fight.member seat).heal.hp,
        fight.replace seat (fight.member seat).heal⟩
  /-- The boss hits a member that stands. -/
  | blow {seat : fight.Seat} {guarding : Bool} {damage : Int} {thrown dice : ρ}
      (hseat : fight.target? = some (seat, thrown)) (hboss : fight.boss.isAlive = true)
      (hroll : rollDamage fight.boss.attack (fight.member seat).defense thrown = (damage, dice)) :
      Does fight ⟨fight.party.length, seat,
        .hit fight.boss.name (fight.member seat).name (Fight.soften guarding damage)
          ((fight.member seat).hurt (Fight.soften guarding damage)).hpLeft,
        { fight.replace seat ((fight.member seat).hurt (Fight.soften guarding damage)) with
          dice := dice }⟩

/-- However strong the defense is, a hit that lands takes a point. -/
theorem one_le_of_roll {attack defense : Nat} {thrown dice : ρ} {damage : Int}
    (h : rollDamage attack defense thrown = (damage, dice)) : 1 ≤ damage := by
  obtain ⟨rfl, -⟩ := Prod.mk.inj h
  exact Int.le_max_left _ _

theorem one_le_soften {guarding : Bool} {damage : Int} (h : 1 ≤ damage) :
    1 ≤ Fight.soften guarding damage := by
  unfold Fight.soften
  split
  · exact Int.le_max_left _ _
  · exact h

/-- What becomes of a combatant at some place, in a fight with some number of members. -/
inductive Change (place seats : Nat) (c : Combatant) : Event → Combatant → Prop
  | hit {attacker : String} {damage : Int} (h : 1 ≤ damage) :
      Change place seats c (.hit attacker c.name damage (c.hurt damage).hpLeft) (c.hurt damage)
  | healed (h : place < seats) : Change place seats c (.healed c.name c.healing c.heal.hp) c.heal

variable {fight : Fight ρ} {moment : Moment ρ}

/-- **All that an elementary action changes** is one combatant that stands. -/
theorem Does.change (h : Does fight moment) :
    ∃ c c', fight.everybody[moment.place]? = some c ∧ c.isAlive = true ∧
      Change moment.place fight.party.length c moment.event c' ∧
      moment.fight.everybody = fight.everybody.set moment.place c' ∧
      moment.fight.party.length = fight.party.length := by
  -- One case per elementary action. The place is that of the boss in the first, and a seat of the
  -- party in the others.
  cases h with
  | strike hup hboss hroll =>
    exact ⟨fight.boss, _, fight.everybody_boss, hboss, .hit (one_le_of_roll hroll),
      fight.everybody_hurt_boss _ _, rfl⟩
  | @heal seat hseat =>
    exact ⟨fight.member seat, _, fight.everybody_seat seat, Fight.isAlive_of_weakest? hseat,
      .healed seat.isLt, fight.everybody_replace seat _, List.length_set⟩
  | @blow seat guarding damage thrown dice hseat hboss hroll =>
    exact ⟨fight.member seat, _, fight.everybody_seat seat, Fight.isAlive_of_target? hseat,
      .hit (one_le_soften (one_le_of_roll hroll)), fight.everybody_replace seat _, List.length_set⟩

/-- Who acts stands, and so does the one acted upon. -/
theorem Does.stands (h : Does fight moment) :
    fight.Stands moment.actor ∧ fight.Stands moment.place := by
  cases h with
  | @strike seat _ _ hup hboss => exact ⟨fight.stands_seat hup, fight.stands_boss hboss⟩
  | @heal seat hseat =>
    have hup := fight.stands_seat (Fight.isAlive_of_weakest? hseat)
    exact ⟨hup, hup⟩
  | @blow seat _ _ _ _ hseat hboss =>
    exact ⟨fight.stands_boss hboss, fight.stands_seat (Fight.isAlive_of_target? hseat)⟩

theorem Does.standing_ne_nil (h : Does fight moment) : fight.standing ≠ [] := by
  have hne : ∀ {seat : fight.Seat}, (fight.member seat).isAlive = true → fight.standing ≠ [] :=
    fun hup => List.ne_nil_of_mem (Fight.mem_standing.mpr hup)
  cases h with
  | strike hup => exact hne hup
  | heal hseat => exact hne (Fight.isAlive_of_weakest? hseat)
  | blow hseat => exact hne (Fight.isAlive_of_target? hseat)

/-! ## Trails

A trail grows at its end, as a fight does. Events that tell of no action, such as the headings of
turns, do not belong to it. -/

/-- Moments that follow from a fight one after the other, and the fight at the end of them. -/
inductive Trail (start : Fight ρ) : List (Moment ρ) → Fight ρ → Prop
  | nil : Trail start [] start
  | snoc {past : List (Moment ρ)} {now : Fight ρ} {moment : Moment ρ} (h : Trail start past now)
      (hd : Does now moment) : Trail start (past ++ [moment]) moment.fight

/-- Trails are put end to end, by induction on the later one, which grows at its end as they all do.
-/
theorem Trail.append {start now last : Fight ρ} {past later : List (Moment ρ)}
    (h : Trail start past now) (hl : Trail now later last) : Trail start (past ++ later) last := by
  induction hl with
  | nil => rwa [List.append_nil]
  | snoc _ hd ih =>
    rw [← List.append_assoc]
    exact ih.snoc hd

/-- Whether an event tells of an elementary action. -/
def Event.isDeed : Event → Bool
  | .hit .. | .healed .. => true
  | _ => false

/-- A fight and events come of another fight by elementary actions, of which the events tell. -/
def Leads (fight : Fight ρ) (outcome : Fight ρ × List Event) : Prop :=
  ∃ past, Trail fight past outcome.1 ∧ past.map Moment.event = outcome.2.filter Event.isDeed

/-- What tells of no action has left the fight as it was. -/
theorem Leads.still {events : List Event} (h : events.filter Event.isDeed = []) :
    Leads fight (fight, events) :=
  ⟨[], .nil, h.symm⟩

theorem Leads.one {events : List Event} (hd : Does fight moment)
    (h : events.filter Event.isDeed = [moment.event]) : Leads fight (moment.fight, events) :=
  ⟨[] ++ [moment], .snoc .nil hd, h.symm⟩

/-- One thing after the other: the trails are joined, and so is what they tell. -/
theorem Leads.trans {outcome later : Fight ρ × List Event} (h : Leads fight outcome)
    (hl : Leads outcome.1 later) : Leads fight (later.1, outcome.2 ++ later.2) := by
  obtain ⟨past, htrail, htold⟩ := h
  obtain ⟨past', htrail', htold'⟩ := hl
  refine ⟨past ++ past', htrail.append htrail', ?_⟩
  rw [List.map_append, List.filter_append, htold, htold']

theorem Leads.told {outcome : Fight ρ × List Event} {events : List Event} (h : Leads fight outcome)
    (he : events.filter Event.isDeed = outcome.2.filter Event.isDeed) :
    Leads fight (outcome.1, events) := by
  obtain ⟨past, htrail, htold⟩ := h
  exact ⟨past, htrail, htold.trans he.symm⟩

end Does

/-! ## The actions of a turn

Each of the actions that the rules know is a trail: of as many moments as members strike, of one
moment for a heal, and of one for the attack of the boss. -/

namespace Fight

variable [Dice ρ]

theorem party_memberHits (fight : Fight ρ) (c : Combatant) :
    (fight.memberHits c).1.party = fight.party := by
  unfold memberHits
  split <;> rfl

/-- A member that does not strike leaves the fight still; one that does makes a trail of one moment.
-/
theorem leads_memberHits {fight : Fight ρ} {c : Combatant} (hc : c ∈ fight.party) :
    Leads fight (fight.memberHits c) := by
  obtain ⟨seat, rfl⟩ := List.mem_iff_get.mp hc
  unfold memberHits
  split
  · next h =>
    obtain ⟨hup, hboss⟩ := Bool.and_eq_true_iff.mp h
    exact .one (Does.strike hup hboss rfl) rfl
  · exact .still rfl

/-- The hits of members who all have a seat. The seats stay theirs while the boss is hit, since a
hit on the boss changes nobody of the party. -/
theorem leads_hitsOf {fight : Fight ρ} {members : List Combatant}
    (h : ∀ c ∈ members, c ∈ fight.party) : Leads fight (fight.hitsOf members) := by
  induction members generalizing fight with
  | nil => exact .still rfl
  | cons c rest ih =>
    show Leads fight (_, (fight.memberHits c).2 ++ _)
    refine (leads_memberHits (h c List.mem_cons_self)).trans (ih ?_)
    intro c' hc'
    rw [party_memberHits]
    exact h c' (List.mem_cons_of_mem _ hc')

theorem leads_partyAttack (fight : Fight ρ) : Leads fight fight.partyAttack :=
  leads_hitsOf fun _ hc => hc

theorem leads_partyHeal (fight : Fight ρ) : Leads fight fight.partyHeal := by
  unfold partyHeal
  cases hseat : fight.weakest? with
  | none => exact .still rfl
  | some seat => exact .one (.heal hseat) rfl

/-- The boss needs to stand for its attack to be an elementary action. The rules see to that before
they let it attack. -/
theorem leads_bossAttack {fight : Fight ρ} (guarding : Bool) (hboss : fight.boss.isAlive = true) :
    Leads fight (fight.bossAttack guarding) := by
  cases htarget : fight.target? with
  | none =>
    rw [bossAttack_of_none guarding htarget]
    exact .still rfl
  | some target =>
    obtain ⟨seat, thrown⟩ := target
    rw [bossAttack_of_target? guarding htarget, bossHits_eq rfl]
    refine .one (.blow htarget hboss rfl) ?_
    -- a line for the fall may follow the hit, and is no action
    dsimp only
    split <;> rfl

end Fight
end Arena
end CombatTrials
