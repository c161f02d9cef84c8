import CombatTrials.Proofs.Arena.Attrition
import CombatTrials.Proofs.Arena.Bindings

/-!
# What a strategy is shown

A turn is only taken while nobody has won, so on every turn of a first play the boss stands and
somebody stands against it (`open_of_mem_rounds`). Then the places that a turn shows are those that
they are named for: the leader is the first member that stands, and the weakest is the first of
those that stand with the least share of hit points. The place that a turn would show in default of
these is never shown.

A heal looks for the weakest member again and finds the same one, because nothing happens to the
fight between the strategy's decision and the party's action.
-/

namespace CombatTrials
namespace Arena

open Chance (Dice Stream)
open Script (Expression Scope Value)
open Script.Exec (reading_bind reading_run run_bind)

variable {ρ : Type}

/-! ## The first of the least

The search keeps the best so far and gives it up for something smaller only. So of several that are
least the first wins, if the list is in order. -/

namespace Fight

/-- Nobody has a smaller key than the one that is found. By induction on those still to be looked
at, the best so far being any. -/
theorem leastBy_le {α : Type} (key : α → Int) (best : α) (l : List α) :
    ∀ a ∈ best :: l, key (leastBy key best l) ≤ key a := by
  induction l generalizing best with
  | nil =>
    intro a ha
    obtain rfl := List.mem_singleton.mp ha
    exact Int.le_refl _
  | cons b rest ih =>
    intro a ha
    rw [leastBy]
    -- either `b` takes the place of the best so far or it is no better than that
    by_cases hb : key b < key best
    · rw [if_pos hb]
      have hbest := ih b b List.mem_cons_self
      rcases List.mem_cons.mp ha with rfl | ha
      · omega
      · exact ih b a ha
    · rw [if_neg hb]
      have hbest := ih best best List.mem_cons_self
      rcases List.mem_cons.mp ha with rfl | ha
      · exact hbest
      · rcases List.mem_cons.mp ha with rfl | ha
        · omega
        · exact ih best a (List.mem_cons_of_mem _ ha)

/-- In an ascending list, all that stands before the least that is found is greater. -/
theorem leastBy_lt {n : Nat} {key : Fin n → Int} {best : Fin n} {l : List (Fin n)}
    (h : (best :: l).Pairwise (· < ·)) :
    ∀ a ∈ best :: l, a < leastBy key best l → key (leastBy key best l) < key a := by
  induction l generalizing best with
  | nil =>
    intro a ha hlt
    obtain rfl := List.mem_singleton.mp ha
    exact absurd hlt (Fin.lt_irrefl _)
  | cons b rest ih =>
    obtain ⟨hbest, hrest⟩ := List.pairwise_cons.mp h
    intro a ha
    rw [leastBy]
    by_cases hb : key b < key best
    · rw [if_pos hb]
      intro hlt
      rcases List.mem_cons.mp ha with rfl | ha
      · have hleast : key (leastBy key b rest) ≤ key b := leastBy_le key b rest b List.mem_cons_self
        omega
      · exact ih hrest a ha hlt
    · rw [if_neg hb]
      intro hlt
      have hshort : (best :: rest).Pairwise (· < ·) :=
        List.pairwise_cons.mpr
          ⟨fun a ha => hbest a (List.mem_cons_of_mem _ ha), (List.pairwise_cons.mp hrest).2⟩
      rcases List.mem_cons.mp ha with rfl | ha
      · exact ih hshort _ List.mem_cons_self hlt
      · rcases List.mem_cons.mp ha with rfl | ha
        · -- `a` was passed over for `best`, which comes before it, and so does not come behind
          -- `a` later on
          have hbefore := Fin.lt_trans (hbest a List.mem_cons_self) hlt
          have hfirst := ih hshort best List.mem_cons_self hbefore
          omega
        · exact ih hshort a (List.mem_cons_of_mem _ ha) hlt

/-! ## Who leads and who is weakest

Both are looked for among those who stand. Where nobody does there is a default for either, which
has no place in what follows. -/

variable {fight : Fight ρ}

/-- Those who stand are listed in the order of their seats. -/
theorem pairwise_standing (fight : Fight ρ) : fight.standing.Pairwise (· < ·) :=
  (List.pairwise_lt_finRange _).filter _

theorem leader_spec (h : fight.partyAlive = true) :
    (fight.member fight.leader).isAlive = true ∧
      ∀ seat < fight.leader, (fight.member seat).isAlive = false := by
  have hpairwise := fight.pairwise_standing
  cases hs : fight.standing with
  | nil => exact absurd hs (standing_ne_nil h)
  | cons first rest =>
    have hleader : fight.leader = first := by
      simp only [leader, hs, List.head?_cons, Option.getD_some]
    rw [hs] at hpairwise
    rw [hleader]
    refine ⟨mem_standing.mp (hs ▸ List.mem_cons_self), fun seat hlt => ?_⟩
    rw [Bool.eq_false_iff, Ne, ← mem_standing, hs, List.mem_cons, not_or]
    -- a seat before the first of those who stand is none of them, for they come in order
    refine ⟨Fin.ne_of_lt hlt, fun hseat => ?_⟩
    exact Fin.lt_asymm hlt ((List.pairwise_cons.mp hpairwise).1 seat hseat)

/-- The weakest member that stands is the first of those with the least share of hit points. -/
theorem exists_weakest (h : fight.partyAlive = true) :
    ∃ weakest, fight.weakest? = some weakest ∧ (fight.member weakest).isAlive = true ∧
      ∀ seat, (fight.member seat).isAlive = true →
        (fight.member weakest).weakness ≤ (fight.member seat).weakness ∧
        (seat < weakest → (fight.member weakest).weakness < (fight.member seat).weakness) := by
  -- those who stand are listed in order, so the first of the least has the lowest seat
  have hpairwise := fight.pairwise_standing
  cases hs : fight.standing with
  | nil => exact absurd hs (standing_ne_nil h)
  | cons first rest =>
    have hweakest :
        fight.weakest? = some (leastBy (fun s => (fight.member s).weakness) first rest) := by
      simp only [weakest?, hs]
    rw [hs] at hpairwise
    refine ⟨_, hweakest, isAlive_of_weakest? hweakest, fun seat hup => ?_⟩
    have hseat : seat ∈ first :: rest := hs ▸ mem_standing.mpr hup
    exact ⟨leastBy_le (fun s => (fight.member s).weakness) first rest seat hseat,
      leastBy_lt hpairwise seat hseat⟩

end Fight

/-! ## The turns of a play

A strategy is asked on the fight at the beginning of a turn. These fights are listed, as far as the
play goes, so that something can be said of every one of them. -/

section Rounds

variable [Dice ρ]

/-- The numbers of the turns from one of some number on, as long as they go on, and the fight as the
strategy meets it on each of them. -/
def roundsFrom (strategy : Option Script.Program) (globals : Scope Action) :
    (remaining : Nat) → (number : UInt32) → Fight ρ → List (UInt32 × Fight ρ)
  | 0, _, _ => []
  | remaining + 1, number, fight =>
    (number, fight) ::
      match takeTurn strategy globals number fight with
      | .last _ => []
      | .on next _ => roundsFrom strategy globals remaining (number + 1) next

/-- The turns of a play. -/
def Matchup.rounds (m : Matchup) (limit : UInt32) (fight : Fight ρ) : List (UInt32 × Fight ρ) :=
  match globalsOf m.encounter.strategy with
  | .error _ => []
  | .ok globals => roundsFrom m.encounter.strategy globals limit.toNat 1 fight

variable {strategy : Option Script.Program} {globals : Scope Action} {number : UInt32}
  {fight : Fight ρ}

theorem mem_roundsFrom {I : Fight ρ → Prop}
    (hstep : ∀ {number fight next events}, I fight →
      takeTurn strategy globals number fight = .on next events → I next)
    {remaining : Nat} (h : I fight) :
    ∀ round ∈ roundsFrom strategy globals remaining number fight, I round.2 := by
  induction remaining generalizing number fight with
  | zero => exact fun _ hround => absurd hround List.not_mem_nil
  | succ remaining ih =>
    intro round hround
    rcases List.mem_cons.mp hround with rfl | hround
    · exact h
    · -- a last turn has none behind it, and any other hands on a fight of which `I` holds
      cases ht : takeTurn strategy globals number fight with
      | last course =>
        rw [ht] at hround
        exact absurd hround List.not_mem_nil
      | on next events =>
        rw [ht] at hround
        exact ih (hstep h ht) round hround

theorem Leads.bounded {outcome : Fight ρ × List Event} (h : Leads fight outcome)
    (hb : fight.Bounded) : outcome.1.Bounded := by
  obtain ⟨last, events⟩ := outcome
  obtain ⟨past, htrail, -⟩ := h
  dsimp only at htrail ⊢
  induction htrail with
  | nil => exact hb
  | snoc _ hd ih => exact hd.bounded ih

/-- On every turn of a first play nobody has won, and hit points are within their bounds. -/
theorem open_of_mem_rounds {m : Matchup} {dice : ρ} {limit : UInt32} {round : UInt32 × Fight ρ}
    (h : round ∈ m.rounds limit (.start m dice)) : round.2.winner? = none ∧ round.2.Bounded := by
  unfold Matchup.rounds at h
  cases hglobals : globalsOf m.encounter.strategy with
  | error failure =>
    rw [hglobals] at h
    exact absurd h List.not_mem_nil
  | ok globals =>
    rw [hglobals] at h
    -- true at the start, and handed on by every turn that is not the last
    refine mem_roundsFrom (I := fun fight => fight.winner? = none ∧ fight.Bounded) ?_
      ⟨Fight.winner?_start m dice, Fight.bounded_start m dice⟩ round h
    intro number fight next events hopen ht
    have hturn := takeTurn_resolved m.encounter.strategy globals number fight
    rw [ht] at hturn
    exact ⟨hturn.winner?_of_on, hturn.leads.bounded hopen.2⟩

end Rounds

/-! ## What is shown

What a strategy sees is said by what its expressions read, and not by what is stored in a scope. -/

/-- A script that looks at an attribute of a variable finds some value there, and does nothing
else. -/
def Reads (scope : Scope Action) (name key : String) (v : Value Action) : Prop :=
  ∀ action, ((Expression.access (.identifier name) key).step actionHost).run.run (scope, action) =
    (.ok v, (scope, action))

/-- What a script reads of a combatant by some name. -/
structure Shows (scope : Scope Action) (name : String) (c : Combatant) : Prop where
  hp : Reads scope name "hp" (.number (Float.ofInt c.hp))
  maxHp : Reads scope name "max_hp" (.number (Float.ofNat c.maxHp))
  hpRatio : Reads scope name "hp_ratio" (.number c.hpRatio)
  attack : Reads scope name "attack" (.number (Float.ofNat c.attack))
  defense : Reads scope name "defense" (.number (Float.ofNat c.defense))
  alive : Reads scope name "alive" (.boolean c.isAlive)

/-- An attribute of a bound object can be read wherever the name is looked up. -/
theorem reads_of_find? {scope : Scope Action} {name key : String} {i : Nat}
    {body : Script.Object Action} {v : Value Action} (h : scope.find? name = some (.object i body))
    (hv : body.attributes.find? key = some v) : Reads scope name key v := by
  intro action
  have hname : scope.get name = .ok (.object i body) := by
    unfold Scope.get
    rw [h]
  have hvalue : (Value.object i body).getAttribute key = .ok v := by
    simp only [Value.getAttribute, hv]
  simp only [Expression.step, Expression.evaluate, reading_bind, run_bind, reading_run, hname]
  exact congrArg (·, (scope, action)) hvalue

theorem shows_of_find? {scope : Scope Action} {name : String} {i : Nat} {c : Combatant}
    (h : scope.find? name = some (.object i (combatantRecord c))) : Shows scope name c where
  hp := reads_of_find? h rfl
  maxHp := reads_of_find? h rfl
  hpRatio := reads_of_find? h rfl
  attack := reads_of_find? h rfl
  defense := reads_of_find? h rfl
  alive := reads_of_find? h rfl

/-! ## The view of a fight

What the names of a turn show is tied to the fight, and to what a decision does to it. -/

/-- A heal goes to the weakest of those who stand, whom the turn has shown under that name. -/
theorem Fight.partyHeal_of_weakest? {fight : Fight ρ} {seat : fight.Seat}
    (h : fight.weakest? = some seat) :
    fight.partyHeal = (fight.replace seat (fight.member seat).heal,
      [.healed (fight.member seat).name (fight.member seat).healing
        (fight.member seat).heal.hp]) := by
  unfold partyHeal
  rw [h]

/-- A heal gives something between nothing and all that is missing. -/
theorem Combatant.hp_heal {c : Combatant} (h : c.hp ≤ c.maxHp) :
    c.hp ≤ c.heal.hp ∧ c.heal.hp ≤ c.maxHp ∧ c.heal.hp - c.hp ≤ c.maxHp - c.hp := by
  have hgiven := healing_nonneg h
  have hmissing := c.healing_le
  simp only [heal]
  omega

/-- **The view matches the fight.** On every turn of a first play the boss stands, and is shown; the
leader that is shown is the first member that stands; and the weakest that is shown is a member that
stands, has no greater share of its hit points than any other that does, and a smaller one than all
of these before it. If the strategy decides to heal, it is this member that is healed, by no more
than it lacks, and nobody else is changed before the boss strikes. -/
theorem view_matches_fight [Dice ρ] {m : Matchup} {dice : ρ} {limit number : UInt32}
    {fight : Fight ρ}
    (h : (number, fight) ∈ m.rounds limit (.start m dice)) (globals : Scope Action) :
    let scope := bindTurn globals number fight
    (fight.boss.isAlive = true ∧ Shows scope "boss" fight.boss) ∧
    (∃ leader, (fight.member leader).isAlive = true ∧
      (∀ seat < leader, (fight.member seat).isAlive = false) ∧
        Shows scope "leader" (fight.member leader)) ∧
    ∃ weakest, (fight.member weakest).isAlive = true ∧
      (∀ seat, (fight.member seat).isAlive = true →
        (fight.member weakest).weakness ≤ (fight.member seat).weakness ∧
        (seat < weakest → (fight.member weakest).weakness < (fight.member seat).weakness)) ∧
      Shows scope "weakest" (fight.member weakest) ∧
      (choose m.encounter.strategy globals number fight = .ok .heal →
        let target := fight.member weakest
        (∃ acted events,
          takeTurn m.encounter.strategy globals number fight =
            bossResponds number false (acted, events) ∧
          acted.everybody = fight.everybody.set weakest target.heal) ∧
        target.heal.profile = target.profile ∧
        target.hp ≤ target.heal.hp ∧ target.heal.hp ≤ target.maxHp ∧
        target.heal.hp - target.hp ≤ target.maxHp - target.hp) := by
  intro scope
  obtain ⟨hopen, hbounded⟩ := open_of_mem_rounds h
  obtain ⟨hboss, hparty⟩ := Fight.winner?_eq_none.mp hopen
  obtain ⟨hleader, hfirst⟩ := fight.leader_spec hparty
  obtain ⟨weakest, hweakest, hup, hleast⟩ := Fight.exists_weakest hparty
  -- the places of the turn are numbered from zero, the weakest having the fourth
  have hshown :
      (turnObjects fight)[3]? = some ("weakest", combatantRecord (fight.member weakest)) := by
    unfold turnObjects
    rw [hweakest]
    rfl
  refine ⟨⟨hboss, shows_of_find? (find?_bindTurn_object (i := 0) rfl)⟩,
    ⟨fight.leader, hleader, hfirst, shows_of_find? (find?_bindTurn_object (i := 2) rfl)⟩,
    weakest, hup, hleast, shows_of_find? (find?_bindTurn_object hshown), ?_⟩
  intro hheal target
  refine ⟨⟨fight.replace weakest target.heal,
    [.healed target.name target.healing target.heal.hp], ?_,
    fight.everybody_replace weakest target.heal⟩, target.profile_heal, ?_⟩
  · unfold takeTurn
    rw [hheal]
    simp only [resolve, Fight.partyHeal_of_weakest? hweakest, target]
  · exact Combatant.hp_heal (hbounded target (fight.member_mem_everybody weakest)).1

/-- Three who only ever heal. -/
def infirmary : Matchup where
  encounter :=
    ⟨"infirmary", [⟨"Aria", 3, 5, 0⟩, ⟨"Bryn", 10, 5, 0⟩, ⟨"Cleo", 20, 5, 0⟩], ⟨"Slime", 9, 4, 0⟩,
    some (.ofBody (.invoke "heal"))⟩
  sound := by decide

/-- On the third turn the last two members have the same share of their hit points. -/
theorem view_matches_fight_in_infirmary :
    let start := Fight.start infirmary (Stream.ofSeed 6)
    let rounds := infirmary.rounds 3 start
    let fight := (rounds.getD 2 (0, start)).2
    (3, fight) ∈ rounds ∧ fight.party.map Combatant.hp = [3, 8, 16] ∧
      choose infirmary.encounter.strategy {} 3 fight = .ok .heal ∧
      ∃ weakest : fight.Seat, (weakest : Nat) = 1 ∧
        Shows (bindTurn {} 3 fight) "weakest" (fight.member weakest) ∧
        ∃ acted events,
          takeTurn infirmary.encounter.strategy {} 3 fight =
            bossResponds 3 false (acted, events) ∧
          acted.everybody = fight.everybody.set 1 (fight.member weakest).heal := by
  intro start rounds fight
  have hround : 2 < rounds.length ∧ (rounds.getD 2 (0, start)).1 = 3 ∧
      fight.party.map Combatant.hp = [3, 8, 16] ∧
      choose infirmary.encounter.strategy {} 3 fight = .ok .heal := by decide +kernel
  obtain ⟨hlong, hnumber, hhp, hheal⟩ := hround
  -- the description of the weakest member fits one seat only, the second of three
  have hsecond : ∀ weakest, (∀ seat, (fight.member seat).isAlive = true →
      (fight.member weakest).weakness ≤ (fight.member seat).weakness ∧
      (seat < weakest → (fight.member weakest).weakness < (fight.member seat).weakness)) →
        (weakest : Nat) = 1 := by
    decide +kernel
  have hthird : ∀ (l : List (UInt32 × Fight Stream)) (first : UInt32 × Fight Stream), 2 < l.length →
      (l.getD 2 first).1 = 3 → (3, (l.getD 2 first).2) ∈ l := by
    intro l first hlength hthree
    rw [← hthree, ← List.getElem_eq_getD (h := hlength) first]
    exact List.getElem_mem hlength
  have hmem : (3, fight) ∈ rounds := hthird rounds (0, start) hlong hnumber
  obtain ⟨-, -, weakest, -, hleast, hshows, hacts⟩ := view_matches_fight hmem {}
  obtain ⟨⟨acted, events, hturn, heverybody⟩, -⟩ := hacts hheal
  have hone := hsecond weakest hleast
  rw [hone] at heverybody
  exact ⟨hmem, hhp, hheal, weakest, hone, hshows, acted, events, hturn, heverybody⟩

end Arena
end CombatTrials
