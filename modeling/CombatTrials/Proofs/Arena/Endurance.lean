import CombatTrials.Proofs.Arena.Turns

/-!
# What a whole fight keeps

Over all plays of a bout, whatever its strategy asks for and however the dice fall, `Keeps` holds
after every elementary action: nobody changes but in hit points, which stay below the greatest
number; the boss never recovers; whoever is down stays exactly as it is, and lies no deeper than the
one hit that felled it could bring it; and there is always somebody left who stands.

`Keeps` is an invariant as it stands. Most of its step is read off `Does.change`. What is said of
those who are down also needs that a heal takes nothing away, or a member could go down by being
healed.
-/

namespace CombatTrials
namespace Arena

open Chance (Dice)

/-! ## The start

A fight starts with everybody unhurt. That nobody starts without a hit point is known of admitted
encounters only, and without it a member could be down that was never hit. -/

/-- A matchup has no combatant without hit points, since its encounter was admitted without defects.
-/
theorem Matchup.hp_ne_zero (m : Matchup) {f : Fighter} (hf : f ∈ m.encounter.everybody) :
    f.hp ≠ 0 := by
  have hsound := m.sound
  unfold Encounter.defect? at hsound
  split at hsound
  · exact absurd hsound (by simp)
  · cases hfind : m.encounter.everybody.find? fun f => f.hp == 0 with
    | some f' => simp [hfind] at hsound
    | none => simpa using List.find?_eq_none.mp hfind f hf

variable {ρ : Type}

/-- The hit points of everybody are within their bounds. -/
def Fight.Bounded (fight : Fight ρ) : Prop := ∀ c ∈ fight.everybody, c.hp ≤ c.maxHp ∧ 1 ≤ c.maxHp

theorem Fight.everybody_start (m : Matchup) (dice : ρ) :
    (start m dice).everybody = m.encounter.everybody.map Combatant.ofFighter := by
  simp [everybody, start, Encounter.everybody]

theorem Fight.full_start (m : Matchup) (dice : ρ) :
    ∀ c ∈ (start m dice).everybody, c.hp = c.maxHp ∧ 1 ≤ c.maxHp := by
  intro c hc
  rw [everybody_start] at hc
  obtain ⟨f, hf, rfl⟩ := List.mem_map.mp hc
  have hne := m.hp_ne_zero hf
  have hpos : f.hp.toNat ≠ 0 := fun h => hne (UInt32.toNat_inj.mp h)
  exact ⟨rfl, Nat.one_le_iff_ne_zero.mpr hpos⟩

namespace Fight

theorem bounded_start (m : Matchup) (dice : ρ) : (start m dice).Bounded := by
  intro c hc
  obtain ⟨hfull, hpos⟩ := full_start m dice c hc
  exact ⟨Int.le_of_eq hfull, hpos⟩

theorem boss_mem_everybody (fight : Fight ρ) : fight.boss ∈ fight.everybody := by simp [everybody]

theorem member_mem_everybody (fight : Fight ρ) (seat : fight.Seat) :
    fight.member seat ∈ fight.everybody :=
  List.mem_of_getElem? (fight.everybody_seat seat)

theorem partyAlive_of_seat (fight : Fight ρ) {seat : fight.Seat}
    (h : (fight.member seat).isAlive = true) : fight.partyAlive = true :=
  List.any_eq_true.mpr ⟨fight.member seat, List.getElem_mem seat.isLt, h⟩

theorem partyAlive_replace {fight : Fight ρ} {seat : fight.Seat} {c : Combatant}
    (h : c.isAlive = true) : (fight.replace seat c).partyAlive = true :=
  List.any_eq_true.mpr ⟨c, List.mem_set seat.isLt c, h⟩

end Fight

/-! ## One elementary action

Of one action everything is read off `Does.change`: one combatant changes, it stood before, and it
was hit for a point at least or healed. What it takes for the invariant is said here clause by
clause, and none of these lemmas looks at a rule again. -/

section Does

variable [Dice ρ] {fight : Fight ρ} {moment : Moment ρ}

/-- Being hit or healed changes hit points and nothing else. -/
theorem Change.profile_eq {place seats : Nat} {c c' : Combatant} {event : Event}
    (h : Change place seats c event c') : c'.profile = c.profile := by
  cases h with
  | hit => exact c.profile_hurt _
  | healed => exact c.profile_heal

/-- Hit points stay below the greatest number: a hit takes some away, and a heal gives no more than
are missing. -/
theorem Change.bounded {place seats : Nat} {c c' : Combatant} {event : Event}
    (h : Change place seats c event c') (hc : c.hp ≤ c.maxHp ∧ 1 ≤ c.maxHp) :
    c'.hp ≤ c'.maxHp ∧ 1 ≤ c'.maxHp := by
  obtain ⟨hle, hpos⟩ := hc
  refine ⟨?_, by cases h <;> exact hpos⟩
  cases h with
  | hit hdamage =>
    simp only [Combatant.hurt]
    omega
  | healed =>
    have hhealing := c.healing_le
    simp only [Combatant.heal]
    omega

/-- Only members recover. -/
theorem Change.hp_le {place seats : Nat} {c c' : Combatant} {event : Event}
    (h : Change place seats c event c') (hp : place = seats) : c'.hp ≤ c.hp := by
  cases h with
  | hit hdamage =>
    simp only [Combatant.hurt]
    omega
  | healed hlt => exact absurd hp (Nat.ne_of_lt hlt)

theorem Does.profile_eq (h : Does fight moment) :
    moment.fight.everybody.map Combatant.profile = fight.everybody.map Combatant.profile := by
  obtain ⟨c, c', hplace, -, hchange, hset, -⟩ := h.change
  obtain ⟨hlt, rfl⟩ := List.getElem?_eq_some_iff.mp hplace
  -- only one place is written to, and what is written there has the profile of what was there
  rw [hset, List.map_set, hchange.profile_eq, ← List.map_set, List.set_getElem_self]

theorem Does.bounded (h : Does fight moment) (hb : fight.Bounded) : moment.fight.Bounded := by
  obtain ⟨c, c', hplace, -, hchange, hset, -⟩ := h.change
  intro d hd
  rw [hset] at hd
  rcases List.mem_or_eq_of_mem_set hd with hd | rfl
  · exact hb d hd
  · exact hchange.bounded (hb c (List.mem_of_getElem? hplace))

/-- The boss never recovers. Its place is the one at which `Change` has no heal to offer. -/
theorem Does.boss_le (h : Does fight moment) : moment.fight.boss.hp ≤ fight.boss.hp := by
  obtain ⟨c, c', hplace, -, hchange, hset, hlen⟩ := h.change
  have hboss := moment.fight.everybody_boss
  rw [hset, hlen] at hboss
  -- either the boss is the one acted upon or it is as it was
  by_cases hp : moment.place = fight.party.length
  · rw [hp, fight.everybody_boss] at hplace
    obtain rfl := Option.some.inj hplace
    rw [hp, List.getElem?_set_self (by simp [Fight.everybody])] at hboss
    rw [← Option.some.inj hboss]
    exact hchange.hp_le hp
  · rw [List.getElem?_set_ne hp, fight.everybody_boss] at hboss
    exact Int.le_of_eq (congrArg Combatant.hp (Option.some.inj hboss).symm)

theorem Does.frozen (h : Does fight moment) {place : Nat} {c : Combatant}
    (hc : fight.everybody[place]? = some c) (hdown : c.hp ≤ 0) :
    moment.fight.everybody[place]? = some c := by
  obtain ⟨d, d', hplace, hup, -, hset, -⟩ := h.change
  -- only those who stand are acted upon
  have hne : moment.place ≠ place := by
    rintro rfl
    obtain rfl := Option.some.inj (hplace.symm.trans hc)
    have hpos := Combatant.isAlive_iff.mp hup
    omega
  rwa [hset, List.getElem?_set_ne hne]

/-- Whoever is down was down before, or was felled by the hit. -/
theorem Does.felled (h : Does fight moment) (hb : fight.Bounded) {place : Nat} {c : Combatant}
    (hc : moment.fight.everybody[place]? = some c) (hdown : c.hp ≤ 0) :
    fight.everybody[place]? = some c ∨
      (moment.place = place ∧ ∃ attacker damage,
        moment.event = .hit attacker c.name damage c.hpLeft ∧
        1 - damage ≤ c.hp) := by
  obtain ⟨d, d', hplace, hup, hchange, hset, -⟩ := h.change
  rw [hset] at hc
  by_cases hp : moment.place = place
  · subst hp
    rw [List.getElem?_set_self (List.getElem?_eq_some_iff.mp hplace).1] at hc
    obtain rfl := Option.some.inj hc
    have hpos := Combatant.isAlive_iff.mp hup
    generalize moment.event = event at hchange
    cases hchange with
    | @hit attacker damage hdamage =>
      refine Or.inr ⟨rfl, attacker, damage, rfl, ?_⟩
      simp only [Combatant.hurt]
      omega
    | healed hlt =>
      -- a member that is healed does not go down
      have hheal := Combatant.healing_nonneg (hb d (List.mem_of_getElem? hplace)).1
      simp only [Combatant.heal] at hdown
      omega
  · rw [List.getElem?_set_ne hp] at hc
    exact Or.inl hc

/-- Whoever acts or is healed stands afterwards. -/
theorem Does.standing (h : Does fight moment) (hb : fight.Bounded) :
    moment.fight.boss.isAlive = true ∨ moment.fight.partyAlive = true := by
  cases h with
  | @strike seat _ _ hup => exact Or.inr (fight.partyAlive_of_seat hup)
  | @heal seat hseat =>
    have hpos := Combatant.isAlive_iff.mp (Fight.isAlive_of_weakest? hseat)
    have hheal := Combatant.healing_nonneg (hb _ (fight.member_mem_everybody seat)).1
    refine Or.inr (Fight.partyAlive_replace (Combatant.isAlive_iff.mpr ?_))
    simp only [Combatant.heal]
    omega
  | blow _ hboss => exact Or.inl hboss

end Does

/-! ## A whole fight

The invariant compares the fight of now with all fights before it, so it is kept along a trail and
not from fight to fight. -/

/-- The fights of a trail, its start included. -/
def fightsOf (start : Fight ρ) (past : List (Moment ρ)) : List (Fight ρ) :=
  start :: past.map Moment.fight

theorem mem_fightsOf_concat {start f : Fight ρ} {past : List (Moment ρ)} {moment : Moment ρ} :
    f ∈ fightsOf start (past ++ [moment]) ↔ f ∈ fightsOf start past ∨ f = moment.fight := by
  simp [fightsOf, or_assoc]

theorem not_prefix_of_concat (first : List (Moment ρ)) (moment : Moment ρ) :
    ¬ first ++ [moment] <+: first := by
  intro h
  have hlength := h.length_le
  rw [List.length_append, List.length_singleton] at hlength
  omega

/-- What holds of a fight `now` after some moments from `start`. -/
structure Keeps (start : Fight ρ) (past : List (Moment ρ)) (now : Fight ρ) : Prop where
  /-- The party keeps its length and order, and everybody their name, strengths and greatest hit
  points. -/
  profile : now.everybody.map Combatant.profile = start.everybody.map Combatant.profile
  bounded : now.Bounded
  boss_le : ∀ f ∈ fightsOf start past, now.boss.hp ≤ f.boss.hp
  /-- Whoever was down once is as it was then. -/
  frozen : ∀ f ∈ fightsOf start past, ∀ (place : Nat) (c : Combatant),
    f.everybody[place]? = some c → c.hp ≤ 0 →
    now.everybody[place]? = some c
  /-- Whoever is down was left so by a hit, and had a point at least before it. -/
  felled : ∀ (place : Nat) (c : Combatant), now.everybody[place]? = some c → c.hp ≤ 0 →
    ∃ moment ∈ past, moment.place = place ∧ moment.fight.everybody[place]? = some c ∧
      ∃ attacker damage, moment.event = .hit attacker c.name damage c.hpLeft ∧ 1 - damage ≤ c.hp
  standing : now.boss.isAlive = true ∨ now.partyAlive = true

/-- At the start nobody is down, so what `Keeps` says of those who are is true of nobody. -/
theorem keeps_start (m : Matchup) (dice : ρ) : Keeps (.start m dice) [] (.start m dice) where
  profile := rfl
  bounded := Fight.bounded_start m dice
  boss_le := by simp [fightsOf]
  frozen := by
    intro f hf place c hc _
    obtain rfl := List.mem_singleton.mp hf
    exact hc
  felled := by
    intro place c hc hdown
    obtain ⟨hfull, hpos⟩ := Fight.full_start m dice c (List.mem_of_getElem? hc)
    omega
  standing := by
    obtain ⟨hfull, hpos⟩ := Fight.full_start m dice _ (Fight.boss_mem_everybody _)
    exact Or.inl (Combatant.isAlive_iff.mpr (by omega))

section Trail

variable [Dice ρ] {start now : Fight ρ} {past : List (Moment ρ)} {moment : Moment ρ}

/-- **One elementary action keeps it all.** What is new about the last fight comes from `Does`, and
what was true of the fights before comes along with the trail. -/
theorem Keeps.step (h : Keeps start past now) (hd : Does now moment) :
    Keeps start (past ++ [moment]) moment.fight where
  -- what compares with the start goes through the fight before, and what compares with every fight
  -- of the trail has one case more, for the last of them
  profile := hd.profile_eq.trans h.profile
  bounded := hd.bounded h.bounded
  boss_le := by
    intro f hf
    rcases mem_fightsOf_concat.mp hf with hf | rfl
    · exact Int.le_trans hd.boss_le (h.boss_le f hf)
    · exact Int.le_refl _
  frozen := by
    intro f hf place c hc hdown
    rcases mem_fightsOf_concat.mp hf with hf | rfl
    · exact hd.frozen (h.frozen f hf place c hc hdown) hdown
    · exact hc
  felled := by
    intro place c hc hdown
    -- down before this moment, which the trail explains, or down by its hit
    rcases hd.felled h.bounded hc hdown with hbefore | ⟨hplace, hhit⟩
    · obtain ⟨moment', hm, hrest⟩ := h.felled place c hbefore hdown
      exact ⟨moment', List.mem_append_left _ hm, hrest⟩
    · exact ⟨moment, List.mem_append_right _ (List.mem_singleton_self _), hplace, hc, hhit⟩
  standing := hd.standing h.bounded

/-- A whole trail keeps it, by induction from the start of the fight. -/
theorem Trail.keeps {m : Matchup} {dice : ρ} (h : Trail (.start m dice) past now) :
    Keeps (.start m dice) past now := by
  induction h with
  | nil => exact keeps_start m dice
  | snoc _ hd ih => exact ih.step hd

theorem Trail.take (h : Trail start past now) {first : List (Moment ρ)} (hp : first <+: past) :
    ∃ mid, Trail start first mid ∧ ∀ moment, first ++ [moment] <+: past → Does mid moment := by
  induction h with
  | nil =>
    obtain rfl := List.prefix_nil.mp hp
    exact ⟨start, .nil, fun moment hm => absurd hm (not_prefix_of_concat _ moment)⟩
  | @snoc past now last h hd ih =>
    rcases List.prefix_concat_iff.mp hp with rfl | hp
    · exact ⟨last.fight, .snoc h hd, fun moment hm => absurd hm (not_prefix_of_concat _ moment)⟩
    · obtain ⟨mid, hmid, hnext⟩ := ih hp
      -- the part of the trail that is asked for may be all that came before the last moment
      by_cases hwhole : first = past
      · subst hwhole
        -- nothing of the shorter trail comes after its end: what follows is the last moment
        refine ⟨now, h, fun moment hm => ?_⟩
        rcases List.prefix_concat_iff.mp hm with heq | hm
        · obtain rfl : moment = last := by simpa using heq
          exact hd
        · exact absurd hm (not_prefix_of_concat _ moment)
      · refine ⟨mid, hmid, fun moment hm => ?_⟩
        rcases List.prefix_concat_iff.mp hm with heq | hm
        · exact absurd (List.append_inj_left' heq rfl) hwhole
        · exact hnext moment hm

end Trail

/-- **What a whole fight keeps**, after every hit and every heal of every play of a bout.

The hits and heals that the plays tell of lead from the start to the fight as it is. Each of them is
one by the rules, and is done by somebody who stands upon somebody who stands. After each of them
nobody has changed but in hit points, these are within their bounds, the boss has no more than at
any time before, whoever was down at any time before is as it was then and had one point at least
before the hit that felled it, and not everybody is down. -/
theorem fight_keeps [Dice ρ] (m : Matchup) (dice : ρ) (logging : Bool) (limits : List UInt32) :
    let bout := m.bout dice logging
    ∃ history : List (Moment ρ),
      history.map Moment.event = (bout.story limits).filter Event.isDeed ∧
      (logging = true → (bout.afterAll limits).log = logText (bout.story limits)) ∧
      Trail (.start m dice) history (bout.afterAll limits).fight ∧
      ∀ past, past <+: history →
        ∃ now, Trail (.start m dice) past now ∧ Keeps (.start m dice) past now ∧
          ∀ moment, past ++ [moment] <+: history →
            Does now moment ∧ now.Stands moment.actor ∧ now.Stands moment.place := by
  intro bout
  obtain ⟨history, htrail, htold⟩ := bout.leads_afterAll limits
  refine ⟨history, htold, ?_, htrail, ?_⟩
  · intro hlogging
    have hlog := bout.log_afterAll hlogging limits
    rwa [show bout.log = "" from rfl, String.empty_append] at hlog
  · intro past hp
    obtain ⟨now, hnow, hnext⟩ := htrail.take hp
    exact ⟨now, hnow, hnow.keeps, fun moment hm => ⟨hnext moment hm, (hnext moment hm).stands⟩⟩

end Arena
end CombatTrials
