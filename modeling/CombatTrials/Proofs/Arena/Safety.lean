import Mathlib.Data.List.FinRange
import CombatTrials.Proofs.Arena.Endurance
import CombatTrials.Proofs.Arena.Guarded

/-!
# A sound encounter has no mishaps

Every step of a guarded stage is safe by a fact that is established elsewhere: the encounter was
found sound, somebody was looked at before it is hit, and nobody changes but in hit points. `Sturdy`
collects what is needed of a fight. It speaks of the strengths of everybody, which stay
(`Does.profile_eq`), of bounds on hit points that every elementary action keeps (`Does.bounded`),
and of the dice, which are those of the beginning after some throws (`Does.comes`). So it is carried
along a trail once and for all (`Leads.sturdy`). Then the guarded stage is compared with the rules,
function by function: it finds every step defined and does the same.

That words are wide enough needs an assumption on the rolls and on the size of the party, and
nothing else does. So the assumption is a proposition of its own, and words either are wide for
every number or for the numbers that occur if it holds (`Wide`).
-/

namespace CombatTrials
namespace Arena

open Chance (Dice swingLow swingHigh)
open Numeric (greatestInt64)
open Script (Scope)
open Stage (Ending)

/-! ## Words

Most numbers of a stage are bounded by its encounter, which was read from words of thirty-two bits.
Two are not: the strength of a hit, which is worked out in doubles, and a sum over a party of any
size. For these there are the two bounds below. -/

/-- The greatest strength that a hit is assumed to have, `2 ^ 33`. -/
def greatestStrength : Int := 0x200000000

/-- A party with fewer members than this, `2 ^ 31`, is assumed to be one whose hit points can be
added up. -/
def partyBound : Nat := 0x80000000

/-- Words are wide enough for all numbers, or for those that occur where something holds. -/
def Wide (fits : Int → Bool) (assumed : Prop) : Prop :=
  ∀ n, (assumed → -greatestStrength ≤ n ∧ n ≤ greatestInt64) → fits n = true

/-- Whether a number is one of sixty-four bits with a sign. -/
def isInt64 (n : Int) : Bool := -greatestInt64 - 1 ≤ n && n ≤ greatestInt64

theorem wide_unlimited : Wide (fun _ => true) False := fun _ _ => rfl

/-- Sixty-four bits are wide enough for all that is assumed to occur. -/
theorem wide_int64 : Wide isInt64 True := by
  intro n hn
  obtain ⟨hlow, hhigh⟩ := hn trivial
  unfold isInt64
  rw [Bool.and_eq_true, decide_eq_true_eq, decide_eq_true_eq]
  refine ⟨?_, hhigh⟩
  unfold greatestStrength at hlow
  unfold greatestInt64
  omega

variable {ρ : Type}

/-! ## What a fight keeps to

A step is safe because of something that is true of the whole fight so far. All of it is collected
here, and kept by one elementary action at a time. -/

section Sturdy

variable [Dice ρ]

/-- What dice can turn into when they are thrown. -/
inductive Comes (dice : ρ) : ρ → Prop
  | still : Comes dice dice
  | swing {thrown : ρ} (h : Comes dice thrown) : Comes dice (Dice.swing thrown).2
  | pick {thrown : ρ} (n : Nat) (h : Comes dice thrown) : Comes dice (Dice.pick n thrown).2

/-- No roll of some dice makes a hit more than words can take. -/
def Moderate (dice : ρ) (attack : Nat) : Prop :=
  ∀ thrown, Comes dice thrown →
    0 ≤ strength attack (Dice.swing thrown).1 ∧
      strength attack (Dice.swing thrown).1 ≤ greatestStrength

/-- What makes the steps of a stage defined, in a fight that began with some dice. -/
structure Sturdy (assumed : Prop) (dice : ρ) (fight : Fight ρ) : Prop where
  bounded : fight.Bounded
  words : ∀ c ∈ fight.everybody, c.maxHp < UInt32.size ∧ c.defense < UInt32.size
  comes : Comes dice fight.dice
  moderate : assumed → ∀ c ∈ fight.everybody, Moderate dice c.attack
  few : assumed → fight.party.length < partyBound

variable {assumed : Prop} {start : ρ} {fight : Fight ρ}

theorem sturdy_start (m : Matchup) (dice : ρ)
    (hmoderate : assumed → ∀ f ∈ m.encounter.everybody, Moderate dice f.attack.toNat)
    (hfew : assumed → m.encounter.party.length < partyBound) :
    Sturdy assumed dice (.start m dice) := by
  refine ⟨Fight.bounded_start m dice, ?_, .still, ?_, ?_⟩
  · -- hit points and defenses come from words of the encounter
    intro c hc
    rw [Fight.everybody_start] at hc
    obtain ⟨f, -, rfl⟩ := List.mem_map.mp hc
    exact ⟨f.hp.toNat_lt_size, f.defense.toNat_lt_size⟩
  · intro ha c hc
    rw [Fight.everybody_start] at hc
    obtain ⟨f, hf, rfl⟩ := List.mem_map.mp hc
    exact hmoderate ha f hf
  · intro ha
    simpa [Fight.start] using hfew ha

/-- A roll throws the dice once. -/
theorem Comes.roll {attack defense : Nat} {thrown dice : ρ} {damage : Int} (h : Comes start thrown)
    (hroll : rollDamage attack defense thrown = (damage, dice)) : Comes start dice := by
  obtain ⟨-, rfl⟩ := Prod.mk.inj hroll
  exact h.swing

/-- Choosing whom to attack is a throw among those who stand. -/
theorem Comes.target {seat : fight.Seat} {thrown : ρ} (h : Comes start fight.dice)
    (hseat : fight.target? = some (seat, thrown)) : Comes start thrown := by
  unfold Fight.target? at hseat
  cases hstanding : fight.standing with
  | nil => simp [hstanding] at hseat
  | cons first rest =>
    rw [hstanding] at hseat
    obtain ⟨-, rfl⟩ := Prod.mk.inj (Option.some.inj hseat)
    exact h.pick rest.length

/-- Every elementary action leaves dice that come of those it found, by the throws it made. -/
theorem Does.comes {moment : Moment ρ} (hd : Does fight moment) (h : Comes start fight.dice) :
    Comes start moment.fight.dice := by
  cases hd with
  | strike _ _ hroll => exact h.roll hroll
  | heal => exact h
  | blow hseat _ hroll => exact (h.target hseat).roll hroll

/-- **An elementary action keeps a fight sturdy.** Hit points stay within their bounds, and
everything else that is asked of a combatant is part of its profile. -/
theorem Sturdy.step (h : Sturdy assumed start fight) {moment : Moment ρ} (hd : Does fight moment) :
    Sturdy assumed start moment.fight := by
  -- whoever there is was there before, but for hit points
  have hbefore : ∀ c ∈ moment.fight.everybody, ∃ c₀ ∈ fight.everybody, c₀.profile = c.profile := by
    intro c hc
    have hmem := List.mem_map_of_mem (f := Combatant.profile) hc
    rw [hd.profile_eq] at hmem
    exact List.mem_map.mp hmem
  obtain ⟨_, _, -, -, -, -, hlength⟩ := hd.change
  refine ⟨hd.bounded h.bounded, ?_, hd.comes h.comes, ?_, ?_⟩
  · intro c hc
    obtain ⟨c₀, hc₀, hprofile⟩ := hbefore c hc
    simp only [Combatant.profile, Prod.mk.injEq] at hprofile
    obtain ⟨-, hhp, -, hdefense⟩ := hprofile
    exact hhp ▸ hdefense ▸ h.words c₀ hc₀
  · intro ha c hc
    obtain ⟨c₀, hc₀, hprofile⟩ := hbefore c hc
    simp only [Combatant.profile, Prod.mk.injEq] at hprofile
    obtain ⟨-, -, hattack, -⟩ := hprofile
    exact hattack ▸ h.moderate ha c₀ hc₀
  · intro ha
    rw [hlength]
    exact h.few ha

/-- So does whatever leads from fight to fight, moment by moment. -/
theorem Leads.sturdy (h : Sturdy assumed start fight) {outcome : Fight ρ × List Event}
    (hl : Leads fight outcome) : Sturdy assumed start outcome.1 := by
  obtain ⟨past, htrail, -⟩ := hl
  generalize outcome.1 = now at htrail
  induction htrail with
  | nil => exact h
  | snoc _ hd ih => exact ih.step hd

end Sturdy

namespace Guarded

@[simp]
theorem ok_bind {α β : Type} (a : α) (f : α → Except Mishap β) : (.ok a >>= f) = f a := rfl

/-- What the rules answer, as a guarded stage answers it. -/
def sceneOf (outcome : Fight ρ × List Event) : Scene ρ × List Event := (outcome.1.scene, outcome.2)

section Steps

variable [Dice ρ] {assumed : Prop} {fits : Int → Bool} {start : ρ} {fight : Fight ρ}

theorem place_eq_ok {α : Type} {l : List α} {index : Nat} {a : α} (h : l[index]? = some a) :
    place l index = .ok a := by
  simp [place, h]

omit [Dice ρ] in
/-- A seat of a fight is a place of its scene, which is what a seat is for. -/
theorem place_seat (fight : Fight ρ) (seat : fight.Seat) :
    place fight.scene.party seat = .ok (fight.member seat) :=
  place_eq_ok (List.getElem?_eq_getElem seat.isLt)

theorem word_eq_ok (hw : Wide fits assumed) {n : Int}
    (hn : assumed → -greatestStrength ≤ n ∧ n ≤ greatestInt64) : word fits n = .ok n := by
  simp [word, hw n hn]

theorem word_of_le (hw : Wide fits assumed) {n : Int} (hlow : 0 ≤ n) (hhigh : n ≤ UInt32.size) :
    word fits n = .ok n := by
  refine word_eq_ok hw fun _ => ?_
  simp only [greatestStrength, greatestInt64, UInt32.size] at *
  omega

theorem ratio_eq_ok {c : Combatant} (h : 1 ≤ c.maxHp) : ratio c = .ok c.hpRatio := by
  rw [ratio, if_neg (Nat.ne_of_gt h)]

/-- The factor is drawn from a range that is not empty, as a look at its ends shows. -/
theorem swing_eq_ok (dice : ρ) : swing dice = .ok (Dice.swing dice) := by
  have hrange : swingLow ≤ swingHigh := by decide +kernel
  rw [swing, if_pos hrange]

/-- A hit of somebody on somebody is rolled as the rules roll it, and it is no stronger than words
allow. -/
theorem rollDamage_eq_ok (hw : Wide fits assumed) (h : Sturdy assumed start fight)
    {attacker target : Combatant}
    (hattacker : attacker ∈ fight.everybody) (htarget : target ∈ fight.everybody) {thrown : ρ}
    (hcomes : Comes start thrown) :
    ∃ damage dice, Arena.rollDamage attacker.attack target.defense thrown = (damage, dice) ∧
      rollDamage fits attacker.attack target.defense thrown = .ok (damage, dice) ∧
      1 ≤ damage ∧ (assumed → damage ≤ greatestStrength) := by
  have hdefense := (h.words target htarget).2
  have hrolls : assumed → _ := fun ha => h.moderate ha attacker hattacker thrown hcomes
  -- between nothing on the strongest defense and the strongest hit on none at all
  have hword : word fits (strength attacker.attack (Dice.swing thrown).1 - target.defense) =
      .ok (strength attacker.attack (Dice.swing thrown).1 - target.defense) := by
    refine word_eq_ok hw fun ha => ?_
    obtain ⟨hlow, hhigh⟩ := hrolls ha
    simp only [greatestStrength, greatestInt64, UInt32.size] at *
    omega
  refine ⟨max 1 (strength attacker.attack (Dice.swing thrown).1 - target.defense),
    (Dice.swing thrown).2, rfl, ?_, Int.le_max_left _ _, fun ha => ?_⟩
  · simp only [rollDamage, swing_eq_ok, ok_bind, hword]
    rfl
  · obtain ⟨-, hhigh⟩ := hrolls ha
    simp only [greatestStrength] at *
    omega

/-- Whoever stands is hit within words. -/
theorem word_hurt (hw : Wide fits assumed) (h : Sturdy assumed start fight) {c : Combatant}
    (hc : c ∈ fight.everybody) (hup : c.isAlive = true) {damage : Int} (hone : 1 ≤ damage)
    (hmost : assumed → damage ≤ greatestStrength) :
    word fits (c.hp - damage) = .ok (c.hp - damage) := by
  have hpos := Combatant.isAlive_iff.mp hup
  have hle := (h.bounded c hc).1
  have hsize := (h.words c hc).1
  refine word_eq_ok hw fun ha => ?_
  have hmost := hmost ha
  simp only [greatestStrength, greatestInt64, UInt32.size] at *
  omega

/-! ## The party attacks

The machine goes over places where the rules go over seats. That a place is one of the party is
known at the start of the attack and stays true, since no member comes or goes. -/

/-- The hit of a member. Whether it is made is asked in the same way, and if it is, both combatants
stand. -/
theorem strike_eq (hw : Wide fits assumed) (h : Sturdy assumed start fight) (seat : fight.Seat) :
    strike fits fight.scene seat = .ok (sceneOf (fight.memberHits (fight.member seat))) := by
  have hmember := fight.member_mem_everybody seat
  have hboss := fight.boss_mem_everybody
  simp only [strike, place_seat, ok_bind]
  unfold Fight.memberHits
  -- the scene has the boss of the fight, so both ask the same question
  show (if (_ && fight.boss.isAlive) then _ else _) = _
  split
  · next hup =>
    obtain ⟨damage, dice, hrule, hroll, hone, hmost⟩ := rollDamage_eq_ok hw h hmember hboss h.comes
    have hhurt := word_hurt hw h hboss (Bool.and_eq_true_iff.mp hup).2 hone hmost
    simp only [Fight.scene, hrule, hroll, ok_bind, hhurt]
    rfl
  · rfl

/-- The members from some place on hit one after the other. -/
theorem strikes_eq (hw : Wide fits assumed) (h : Sturdy assumed start fight) {first count : Nat}
    (hcount : first + count = fight.party.length) :
    strikes fits fight.scene (List.range' first count) =
      .ok (sceneOf (fight.hitsOf (fight.party.drop first))) := by
  induction count generalizing first fight with
  | zero =>
    rw [List.drop_eq_nil_of_le (show fight.party.length ≤ first by omega)]
    rfl
  | succ count ih =>
    have hlt : first < fight.party.length := by omega
    have hparty := Fight.party_memberHits fight fight.party[first]
    have hstrike :
        strike fits fight.scene first = .ok (sceneOf (fight.memberHits fight.party[first])) :=
      strike_eq hw h ⟨first, hlt⟩
    -- after the first hit the fight is sturdy again, and the places still fit its party
    have hled := (Fight.leads_memberHits (List.getElem_mem hlt)).sturdy h
    have hlater := ih hled (by rw [hparty]; omega : (first + 1) + count = _)
    rw [hparty] at hlater
    rw [List.drop_eq_getElem_cons hlt]
    simp only [List.range'_succ, strikes, hstrike, ok_bind, sceneOf, hlater]
    rfl

theorem partyAttack_eq (hw : Wide fits assumed) (h : Sturdy assumed start fight) :
    partyAttack fits fight.scene = .ok (sceneOf fight.partyAttack) := by
  rw [partyAttack, List.range_eq_range']
  exact strikes_eq hw h (Nat.zero_add _)

/-! ## The weakest member

The comparison divides for everybody who stands. The rules do the same in doubles, where nothing can
go wrong with it; here every division is looked at. -/

/-- A member and its place. -/
def seated (fight : Fight ρ) (seat : fight.Seat) : Combatant × Nat := (fight.member seat, seat)

omit [Dice ρ] in
/-- Members that stand are listed with their places by the machine, and as seats by the rules. -/
theorem standing_eq (fight : Fight ρ) :
    standing fight.scene = fight.standing.map (seated fight) := by
  have hseats : fight.party.zipIdx = (List.finRange fight.party.length).map (seated fight) :=
    List.ext_getElem (by simp) fun i _ _ => by simp [seated, Fight.member]
  unfold standing
  rw [show fight.scene.party = fight.party from rfl, hseats, List.filter_map]
  rfl

/-- The comparison of shares, by induction on those who are still to be looked at. Everybody has a
greatest number of hit points above zero, so all shares are defined. -/
theorem weakestOf_eq (h : Sturdy assumed start fight) (best : fight.Seat) (rest : List fight.Seat) :
    weakestOf (seated fight best) (rest.map (seated fight)) =
      .ok (seated fight (Fight.leastBy (fun seat => (fight.member seat).weakness) best rest)) := by
  induction rest generalizing best with
  | nil => rfl
  | cons seat rest ih =>
    -- the shares of both who are compared are defined
    have hratio : ∀ seat : fight.Seat,
        ratio (seated fight seat).1 = .ok (fight.member seat).hpRatio :=
      fun seat => ratio_eq_ok (h.bounded _ (fight.member_mem_everybody seat)).2
    simp only [List.map_cons, weakestOf, hratio, ok_bind]
    rw [Fight.leastBy, ← ih]
    exact congrArg (fun member => weakestOf member _) (apply_ite (seated fight) _ _ _).symm

theorem weakest?_eq (h : Sturdy assumed start fight) :
    weakest? fight.scene = .ok (fight.weakest?.map (seated fight)) := by
  unfold weakest? Fight.weakest?
  rw [standing_eq]
  cases fight.standing with
  | nil => rfl
  | cons first rest =>
    simp only [List.map_cons, weakestOf_eq h, ok_bind]
    rfl

/-- The heal of the weakest. Neither what is missing nor what is left after the heal leaves the
bounds on hit points. -/
theorem partyHeal_eq (hw : Wide fits assumed) (h : Sturdy assumed start fight) :
    partyHeal fits fight.scene = .ok (sceneOf fight.partyHeal) := by
  rw [partyHeal, weakest?_eq h, ok_bind, Fight.partyHeal]
  cases hseat : fight.weakest? with
  | none => rfl
  | some seat =>
    have hup := Combatant.isAlive_iff.mp (Fight.isAlive_of_weakest? hseat)
    have hmember := fight.member_mem_everybody seat
    have hle := (h.bounded _ hmember).1
    have hsize := (h.words _ hmember).1
    have hnonneg := Combatant.healing_nonneg hle
    have hmost := (fight.member seat).healing_le
    -- what is missing is less than a word of the encounter, and so is what is there after the heal
    have hmissing : word fits ((fight.member seat).maxHp - (fight.member seat).hp) =
        .ok ((fight.member seat).maxHp - (fight.member seat).hp) :=
      word_of_le hw (by omega) (by omega)
    have hhealed : word fits ((fight.member seat).hp + (fight.member seat).healing) =
        .ok ((fight.member seat).hp + (fight.member seat).healing) :=
      word_of_le hw (by omega) (by omega)
    unfold Combatant.healing at hhealed
    simp only [Option.map_some, seated, hmissing, ok_bind, hhealed]
    rfl

/-! ## The boss attacks

Those who stand are counted before a die is thrown for one of them. An attack is only asked for
while somebody stands, which makes the count positive. -/

omit [Dice ρ] in
theorem living_eq (fight : Fight ρ) (seats : List fight.Seat) :
    living fight.scene (seats.map Fin.val) =
      .ok ((seats.filter fun seat => (fight.member seat).isAlive).map Fin.val) := by
  induction seats with
  | nil => rfl
  | cons seat rest ih =>
    simp only [List.map_cons, living, place_seat, ok_bind, ih, List.filter_cons]
    split <;> rfl

/-- The hit of the boss on somebody who stands, with dice that come of those at the start. -/
theorem bossHits_eq (hw : Wide fits assumed) (h : Sturdy assumed start fight) (guarding : Bool)
    {seat : fight.Seat} (hup : (fight.member seat).isAlive = true) {thrown : ρ}
    (hcomes : Comes start thrown) :
    bossHits fits fight.scene guarding seat thrown =
      .ok (sceneOf (fight.bossHits guarding seat thrown)) := by
  have hmember := fight.member_mem_everybody seat
  obtain ⟨damage, dice, hrule, hroll, hone, hmost⟩ :=
    rollDamage_eq_ok hw h fight.boss_mem_everybody hmember hcomes
  -- a guard makes a hit no stronger
  have hsoft : assumed → Fight.soften guarding damage ≤ greatestStrength := by
    intro ha
    have hmost := hmost ha
    unfold Fight.soften
    split <;> omega
  have hhurt := word_hurt hw h hmember hup (one_le_soften hone) hsoft
  unfold Fight.soften at hhurt
  unfold bossHits Fight.bossHits
  simp only [place_seat, ok_bind, hrule]
  rw [show fight.scene.boss = fight.boss from rfl, hroll, ok_bind]
  simp only [hhurt, ok_bind]
  rfl

theorem bossAttack_eq (hw : Wide fits assumed) (h : Sturdy assumed start fight) (guarding : Bool) :
    bossAttack fits fight.scene guarding = .ok (sceneOf (fight.bossAttack guarding)) := by
  have hliving : living fight.scene (List.range fight.party.length) =
      .ok (fight.standing.map Fin.val) := by
    rw [← List.map_coe_finRange_eq_range]
    exact living_eq fight _
  unfold bossAttack Fight.bossAttack
  rw [show fight.scene.party = fight.party from rfl, hliving, ok_bind]
  cases hstanding : fight.standing with
  | nil => rfl
  | cons first rest =>
    -- the boss draws among those who stand, and there is somebody
    have hpick : pick ((first :: rest).map Fin.val).length fight.scene.dice =
        .ok (((Dice.pick rest.length fight.dice).1 : Nat),
          (Dice.pick rest.length fight.dice).2) := by
      rw [List.length_map]
      rfl
    have hplace : place ((first :: rest).map Fin.val) (Dice.pick rest.length fight.dice).1 =
        .ok ((first :: rest).get (Dice.pick rest.length fight.dice).1 : Nat) := by
      refine place_eq_ok ?_
      rw [List.getElem?_map, List.getElem?_eq_getElem (Dice.pick rest.length fight.dice).1.isLt]
      rfl
    have hmem : (first :: rest).get (Dice.pick rest.length fight.dice).1 ∈ fight.standing := by
      rw [hstanding]
      exact List.get_mem _ _
    have hup := Fight.mem_standing.mp hmem
    rw [if_neg (by simp : ¬ ((first :: rest).map Fin.val).isEmpty = true), hpick, ok_bind]
    dsimp only
    rw [hplace, ok_bind]
    exact bossHits_eq hw h guarding hup (h.comes.pick rest.length)

/-! ## What a strategy sees

All objects of a turn are made before its body runs, whether it looks at them or not. So their steps
have to be defined on every turn, on one that begins with nobody standing as well. -/

/-- The sum of what combatants have. All sums on the way to it fit if the whole does, for nothing
that is added is negative. -/
theorem total_eq (hw : Wide fits assumed) (f : Combatant → Nat) {sum : Int} {l : List Combatant}
    (hsum : assumed → 0 ≤ sum ∧ sum + Data.sumOf f l ≤ greatestInt64) :
    total fits f sum l = .ok (sum + Data.sumOf f l) := by
  induction l generalizing sum with
  | nil => exact congrArg _ (Int.add_zero sum).symm
  | cons c rest ih =>
    simp only [Data.sumOf_cons, Int.natCast_add, ← Int.add_assoc] at hsum ⊢
    -- this sum is no greater than the whole, since what is still to be added is not negative
    have hword : word fits (sum + f c) = .ok (sum + f c) := by
      refine word_eq_ok hw fun ha => ?_
      obtain ⟨hlow, hhigh⟩ := hsum ha
      simp only [greatestStrength]
      omega
    rw [total, hword, ok_bind]
    refine ih fun ha => ?_
    obtain ⟨hlow, hhigh⟩ := hsum ha
    omega

/-- What each has no more of than some bound, all of them have no more of than that bound for each.
-/
theorem sumOf_le {f : Combatant → Nat} {most : Nat} {l : List Combatant} (h : ∀ c ∈ l, f c ≤ most) :
    Data.sumOf f l ≤ l.length * most := by
  induction l with
  | nil => exact Nat.zero_le _
  | cons c rest ih =>
    obtain ⟨hc, hrest⟩ := List.forall_mem_cons.mp h
    rw [Data.sumOf_cons, List.length_cons, Nat.succ_mul, Nat.add_comm]
    exact Nat.add_le_add (ih hrest) hc

theorem partyView_eq (hw : Wide fits assumed) (h : Sturdy assumed start fight) :
    partyView fits fight.scene.party = .ok (partyRecord fight.party) := by
  have hparty : ∀ c ∈ fight.party, c ∈ fight.everybody := fun c hc => List.mem_append_left _ hc
  -- less than two to the power of thirty-two for each of less than two to the power of thirty-one
  have hfits : ∀ f : Combatant → Nat, (∀ c ∈ fight.party, f c ≤ UInt32.size - 1) →
      assumed → (0 : Int) ≤ 0 ∧ 0 + (Data.sumOf f fight.party : Int) ≤ greatestInt64 := by
    intro f hf ha
    have hsum := sumOf_le hf
    have hfew := h.few ha
    simp only [partyBound, UInt32.size, greatestInt64] at *
    omega
  have hleft := total_eq hw Combatant.hpLeft (hfits Combatant.hpLeft fun c hc => by
    have hle := (h.bounded c (hparty c hc)).1
    have hsize := (h.words c (hparty c hc)).1
    unfold Combatant.hpLeft
    omega)
  have hmost := total_eq hw Combatant.maxHp (hfits Combatant.maxHp fun c hc =>
    Nat.le_pred_of_lt (h.words c (hparty c hc)).1)
  rw [show fight.scene.party = fight.party from rfl, partyView, hleft, ok_bind, hmost]
  rfl

theorem combatantView_eq (h : Sturdy assumed start fight) {c : Combatant}
    (hc : c ∈ fight.everybody) : combatantView c = .ok (combatantRecord c) := by
  rw [combatantView, ratio_eq_ok (h.bounded c hc).2]
  rfl

/-- What a turn binds. The first member is looked up by the machine whether it leads or not, and a
party has one. -/
theorem turnObjects_eq (hw : Wide fits assumed) (h : Sturdy assumed start fight) :
    turnObjects fits fight.scene = .ok (Arena.turnObjects fight) := by
  have hfirst : place fight.scene.party 0 = .ok (fight.member fight.firstSeat) :=
    place_seat fight fight.firstSeat
  have hviews : ∀ seat,
      combatantView (fight.member seat) = .ok (combatantRecord (fight.member seat)) :=
    fun seat => combatantView_eq h (fight.member_mem_everybody seat)
  -- with nobody standing both show the first member in place of the leader and of the weakest
  have hleader : ((standing fight.scene).head?.map Prod.fst).getD (fight.member fight.firstSeat) =
      fight.member fight.leader := by
    rw [standing_eq, List.head?_map, Option.map_map]
    unfold Fight.leader
    cases fight.standing.head? <;> rfl
  have hweakest :
      ((fight.weakest?.map (seated fight)).map Prod.fst).getD (fight.member fight.leader) =
        fight.member (fight.weakest?.getD fight.leader) := by
    cases fight.weakest? <;> rfl
  have hboss : combatantView fight.scene.boss = .ok (combatantRecord fight.boss) :=
    combatantView_eq h fight.boss_mem_everybody
  unfold turnObjects
  simp only [hfirst, ok_bind, hleader, weakest?_eq h, hweakest, hboss, partyView_eq hw h, hviews]
  rfl

theorem choose_eq (hw : Wide fits assumed) (h : Sturdy assumed start fight)
    (strategy : Option Script.Program) (globals : Scope Action) (number : UInt32) :
    choose fits strategy globals number fight.scene =
      .ok (Arena.choose strategy globals number fight) := by
  cases strategy with
  | none => rfl
  | some script =>
    simp only [choose, turnObjects_eq hw h, ok_bind, Arena.choose, bindTurn]
    -- both run one body from one scope, so it does not matter what comes of it
    generalize (script.runBody actionHost).run.run _ = outcome
    obtain ⟨result, scope, action⟩ := outcome
    cases result <;> rfl

/-! ## Plays

From here on there is nothing to look at: the machine does what the rules do, provided that the
actions are safe, and they are as long as the fight is sturdy. -/

/-- A turn, as a guarded stage tells of it. -/
def progressOf : Turn ρ → Progress ρ
  | .last course => (some course.ending, course.fight.scene, course.events)
  | .on fight events => (none, fight.scene, events)

/-- The boss answers. A sturdy fight is handed on by what the party did, so nothing is asked of the
fight before that. -/
theorem bossResponds_eq (hw : Wide fits assumed) {outcome : Fight ρ × List Event}
    (h : Sturdy assumed start outcome.1) (number : UInt32) (guarding : Bool) :
    bossResponds fits number guarding (sceneOf outcome) =
      .ok (progressOf (Arena.bossResponds number guarding outcome)) := by
  obtain ⟨acted, first⟩ := outcome
  have hattack : bossAttack fits acted.scene guarding = .ok (sceneOf (acted.bossAttack guarding)) :=
    bossAttack_eq hw h guarding
  simp only [bossResponds, Arena.bossResponds, sceneOf, hattack, ok_bind]
  -- a scene has the boss and the party of the fight, so it answers both questions alike
  by_cases hboss : acted.boss.isAlive = true
  · have hscene : acted.scene.boss.isAlive = true := hboss
    rw [if_pos hboss, if_pos hscene]
    by_cases hparty : (acted.bossAttack guarding).1.partyAlive = true
    · have hstruck : (acted.bossAttack guarding).1.scene.party.any Combatant.isAlive = true :=
        hparty
      rw [if_pos hparty, if_pos hstruck]
      rfl
    · have hstruck : ¬ (acted.bossAttack guarding).1.scene.party.any Combatant.isAlive = true :=
        hparty
      rw [if_neg hparty, if_neg hstruck]
      rfl
  · have hscene : ¬ acted.scene.boss.isAlive = true := hboss
    rw [if_neg hboss, if_neg hscene]
    rfl

theorem resolve_eq (hw : Wide fits assumed) (h : Sturdy assumed start fight) (number : UInt32)
    (action : Action) :
    resolve fits number fight.scene action =
      .ok (progressOf (Arena.resolve number fight action)) := by
  have hacts := (fight.leads_acts action).sturdy h
  cases action with
  | attack =>
    rw [resolve, partyAttack_eq hw h, ok_bind]
    exact bossResponds_eq hw hacts number false
  | guard => exact bossResponds_eq hw hacts number true
  | heal =>
    rw [resolve, partyHeal_eq hw h, ok_bind]
    exact bossResponds_eq hw hacts number false
  | exclude => rfl

theorem takeTurn_eq (hw : Wide fits assumed) (h : Sturdy assumed start fight)
    (strategy : Option Script.Program) (globals : Scope Action) (number : UInt32) :
    takeTurn fits strategy globals number fight.scene =
      .ok (progressOf (Arena.takeTurn strategy globals number fight)) := by
  rw [takeTurn, choose_eq hw h, ok_bind, Arena.takeTurn]
  cases Arena.choose strategy globals number fight with
  | error failure => rfl
  | ok action => exact resolve_eq hw h number action

/-- What a guarded stage answers where the rules come to some course. -/
def answerOf (course : Course ρ) : Ending × Scene ρ × List Event :=
  (course.ending, course.fight.scene, course.events)

/-- The turns of a play, by induction on how many remain: what one turn leaves is sturdy again. -/
theorem turnsFrom_eq (hw : Wide fits assumed) (h : Sturdy assumed start fight)
    (strategy : Option Script.Program) (globals : Scope Action) (limit : UInt32)
    (remaining : Nat) (number : UInt32) :
    turnsFrom fits strategy globals limit remaining number fight.scene =
      .ok (answerOf (Arena.turnsFrom strategy globals limit remaining number fight)) := by
  induction remaining generalizing number fight with
  | zero => rfl
  | succ remaining ih =>
    -- what a turn leaves is led to by elementary actions, and these keep it sturdy
    have hled := (takeTurn_resolved strategy globals number fight).leads.sturdy h
    rw [turnsFrom, takeTurn_eq hw h, ok_bind]
    cases hturn : Arena.takeTurn strategy globals number fight with
    | last course =>
      rw [turnsFrom_of_last hturn]
      rfl
    | on next events =>
      rw [hturn] at hled
      have hlater := ih hled (number + 1)
      rw [turnsFrom_of_on hturn]
      simp only [Turn.outcome] at hlater
      simp only [progressOf, hlater, ok_bind]
      rfl

theorem play_eq (hw : Wide fits assumed) (m : Matchup) (h : Sturdy assumed start fight)
    (limit : UInt32) :
    play fits m.encounter limit fight.scene = .ok (answerOf (m.play limit fight)) := by
  unfold play Matchup.play
  cases globalsOf m.encounter.strategy with
  | error failure => rfl
  | ok globals =>
    simp only [turnsFrom_eq hw h, ok_bind]
    rfl

theorem playAll_eq (hw : Wide fits assumed) (bout : Bout ρ) (h : Sturdy assumed start bout.fight)
    (limits : List UInt32) :
    playAll fits bout.matchup.encounter bout.fight.scene limits =
      .ok (bout.afterAll limits).fight.scene := by
  induction limits generalizing bout with
  | nil => rfl
  | cons limit rest ih =>
    rw [playAll, play_eq hw bout.matchup h, ok_bind]
    exact ih (bout.play limit).2 ((leads_play bout.matchup limit bout.fight).sturdy h)

end Steps
end Guarded

theorem Encounter.build_eq_ok_iff {e : Encounter} {m : Matchup} :
    e.build = .ok m ↔ e = m.encounter := by
  constructor
  · intro h
    unfold build at h
    split at h
    · cases h
    · cases h
      rfl
  · rintro rfl
    unfold build
    split
    · next hdefect => simp [m.sound] at hdefect
    · rfl

/-- **A sound encounter has no mishaps**, whatever its strategy, the dice and the plays before.

Played as a machine plays it, every member that is looked up is there, everything that is drawn is
drawn from something, and every share is one of some hit points; what comes of it is what the rules
say. The same goes for words of sixty-four bits, which nothing overflows, if no roll makes a hit
more than `greatestStrength` and the party has fewer members than `partyBound`. -/
theorem sound_encounter_has_no_mishaps [Dice ρ] {e : Encounter} {m : Matchup}
    (h : e.build = .ok m) (dice : ρ) (logging : Bool) (limits : List UInt32) (limit : UInt32) :
    let bout := (m.bout dice logging).afterAll limits
    let course := m.play limit bout.fight
    let answer := (course.ending, course.fight.scene, course.events)
    (Guarded.playAll (fun _ => true) e (.start e dice) limits >>=
      Guarded.play (fun _ => true) e limit) = .ok answer ∧
    ((∀ f ∈ e.everybody, Moderate dice f.attack.toNat) → e.party.length < partyBound →
      (Guarded.playAll isInt64 e (.start e dice) limits >>= Guarded.play isInt64 e limit) =
        .ok answer) := by
  obtain rfl := Encounter.build_eq_ok_iff.mp h
  intro bout course answer
  -- one argument for words of any width
  have hplays : ∀ {fits : Int → Bool} {assumed : Prop}, Wide fits assumed →
      Sturdy assumed dice (.start m dice) →
      (Guarded.playAll fits m.encounter (.start m.encounter dice) limits >>=
        Guarded.play fits m.encounter limit) = .ok answer := by
    intro fits assumed hw hstart
    have hbefore : Guarded.playAll fits m.encounter (.start m.encounter dice) limits =
        .ok bout.fight.scene :=
      Guarded.playAll_eq hw (m.bout dice logging) hstart limits
    rw [hbefore, Guarded.ok_bind]
    exact Guarded.play_eq hw m (((m.bout dice logging).leads_afterAll limits).sturdy hstart) limit
  refine ⟨hplays wide_unlimited (sturdy_start m dice False.elim False.elim),
    fun hmoderate hfew => ?_⟩
  exact hplays wide_int64 (sturdy_start m dice (fun _ => hmoderate) fun _ => hfew)

/-- Dice that always fall alike: a hit is as strong as its attacker, and the first of some things is
chosen. -/
structure Loaded where
  deriving DecidableEq, Repr

instance : Dice Loaded where
  swing dice := (1.0, dice)
  pick _ dice := (0, dice)

/-- Fighters as strong as they can be. Two members fall to the boss on two turns. -/
def titans : Matchup where
  encounter :=
    ⟨"titans", [⟨"Aria", 0xFFFFFFFF, 0xFFFFFFFF, 0⟩, ⟨"Bryn", 1, 0xFFFFFFFF, 0xFFFFFFFF⟩],
    ⟨"Titan", 0xFFFFFFFF, 0xFFFFFFFF, 0xFFFFFFFE⟩, some (.ofBody (.invoke "attack"))⟩
  sound := by decide

/-- The second play begins when nobody stands, and the whole party is looked at once more. -/
theorem sound_encounter_has_no_mishaps_among_titans :
    titans.encounter.build = .ok titans ∧
    (∀ f ∈ titans.encounter.everybody, Moderate Loaded.mk f.attack.toNat) ∧
    titans.encounter.party.length < partyBound ∧
    let first := (titans.bout Loaded.mk false).play 9
    first.1 = .wipe 2 ∧ first.2.fight.standing = [] ∧
    ∃ scene events,
      (Guarded.playAll isInt64 titans.encounter (.start titans.encounter Loaded.mk) [9] >>=
        Guarded.play isInt64 titans.encounter 9) = .ok (.wipe 1, scene, events) := by
  have hbuild := Encounter.build_eq_ok_iff.mpr (Eq.refl titans.encounter)
  have hmoderate : ∀ f ∈ titans.encounter.everybody, Moderate Loaded.mk f.attack.toNat := by
    have hplain : ∀ f ∈ titans.encounter.everybody,
        0 ≤ strength f.attack.toNat 1.0 ∧ strength f.attack.toNat 1.0 ≤ greatestStrength := by
      decide +kernel
    exact fun f hf _ _ => hplain f hf
  have hfew : titans.encounter.party.length < partyBound := by decide
  have hsafe := (sound_encounter_has_no_mishaps hbuild Loaded.mk false [9] 9).2 hmoderate hfew
  have hwiped : ((titans.bout Loaded.mk false).play 9).1 = .wipe 2 := by decide +kernel
  have hdown : ((titans.bout Loaded.mk false).play 9).2.fight.standing = [] := by decide +kernel
  have hagain :
      (titans.play 9 ((titans.bout Loaded.mk false).afterAll [9]).fight).ending = .wipe 1 := by
    decide +kernel
  rw [hagain] at hsafe
  exact ⟨hbuild, hmoderate, hfew, hwiped, hdown, _, _, hsafe⟩

-- what the checks of an encounter are for
example : Guarded.turnObjects isInt64 (.start ⟨"nobody", [], ⟨"Slime", 8, 1, 0⟩, none⟩ Loaded.mk) =
    .error (.noPlace 0 0) := rfl

example :
    Guarded.turnObjects isInt64
      (.start ⟨"ghost", [⟨"Aria", 10, 5, 0⟩], ⟨"Slime", 0, 1, 0⟩, none⟩ Loaded.mk) =
    .error (.noHitPoints "Slime") := rfl

end Arena
end CombatTrials
