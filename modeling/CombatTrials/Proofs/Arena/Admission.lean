import Mathlib.Data.List.Forall2
import CombatTrials.Proofs.Arena.Safety

/-!
# Which encounters are admitted

An encounter is built into a matchup exactly when it has none of three defects, and of those that it
has the one that is reported is the first: that there is no party, then that somebody starts without
hit points, then that two members have one name. Of several fighters without hit points it is the
first that is named, the boss being the last of all, and of several repeated names the one whose
repetition comes first. The boss may have the name of a member.

A stage that is made of a matchup starts with the strengths that the encounter gives.
-/

namespace CombatTrials
namespace Arena

/-! ## Repeated names

The search for a repetition carries the names it has passed, so it is specified from any such list.
What it finds is a first occurrence twice over: the first place in the list at which a name stands
that already stood before it. -/

/-- No name is repeated, and none is among those seen before. -/
def Fresh (seen names : List String) : Prop := names.Nodup ∧ ∀ x ∈ names, x ∉ seen

/-- A list is fresh if its first name is new and the others are, once the first is among those seen.
The search goes down the list in this way. -/
theorem fresh_cons {seen names : List String} {x : String} :
    Fresh seen (x :: names) ↔ x ∉ seen ∧ Fresh (x :: seen) names := by
  unfold Fresh
  rw [List.nodup_cons, List.forall_mem_cons]
  constructor
  · -- the name moves from the list to those seen, so a clash with it is one within the list before
    -- and one with the seen after
    intro h
    obtain ⟨⟨hnew, hnodup⟩, hx, hrest⟩ := h
    refine ⟨hx, hnodup, fun y hy hseen => ?_⟩
    rcases List.mem_cons.mp hseen with rfl | hseen
    · exact hnew hy
    · exact hrest y hy hseen
  · intro h
    obtain ⟨hx, hnodup, hrest⟩ := h
    exact ⟨⟨fun hy => hrest x hy List.mem_cons_self, hnodup⟩, hx,
      fun y hy hseen => hrest y hy (List.mem_cons_of_mem _ hseen)⟩

variable {seen names : List String} {name : String}

theorem firstRepeated?_eq_none_iff : firstRepeated? seen names = none ↔ Fresh seen names := by
  induction names generalizing seen with
  | nil => simp [firstRepeated?, Fresh]
  | cons x rest ih =>
    rw [firstRepeated?, fresh_cons]
    by_cases hx : x ∈ seen
    · simp [hx]
    · simp [hx, ih]

/-- The name that is found is seen before at some place, up to which no name is. -/
theorem firstRepeated?_eq_some_iff :
    firstRepeated? seen names = some name ↔
      ∃ before after, names = before ++ name :: after ∧ Fresh seen before ∧
        (name ∈ seen ∨ name ∈ before) := by
  induction names generalizing seen with
  | nil => simp [firstRepeated?]
  | cons x rest ih =>
    rw [firstRepeated?]
    -- a first name that was seen is the repetition itself, so nothing can stand before it
    by_cases hx : x ∈ seen
    · rw [if_pos hx]
      constructor
      · intro h
        obtain rfl := Option.some.inj h
        exact ⟨[], rest, rfl, by simp [Fresh], Or.inl hx⟩
      · intro h
        obtain ⟨before, after, heq, hfresh, -⟩ := h
        cases before with
        | nil => rw [(List.cons.inj heq).1]
        | cons y before =>
          obtain ⟨rfl, -⟩ := List.cons.inj heq
          exact absurd hx (fresh_cons.mp hfresh).1
    · rw [if_neg hx, ih]
      constructor
      · intro h
        obtain ⟨before, after, rfl, hfresh, hrepeats⟩ := h
        refine ⟨x :: before, after, rfl, fresh_cons.mpr ⟨hx, hfresh⟩, ?_⟩
        -- what was seen now includes the first name, which on the right stands among those before
        simpa [or_assoc, or_left_comm] using hrepeats
      · intro h
        obtain ⟨before, after, heq, hfresh, hrepeats⟩ := h
        cases before with
        | nil =>
          obtain ⟨rfl, -⟩ := List.cons.inj heq
          exact absurd hrepeats (by simp [hx])
        | cons y before =>
          obtain ⟨rfl, rfl⟩ := List.cons.inj heq
          refine ⟨before, after, rfl, (fresh_cons.mp hfresh).2, ?_⟩
          simpa [or_assoc, or_left_comm] using hrepeats

/-! ## Defects

An encounter can have all three defects at once. Each is therefore characterised together with the
absence of those that are looked for earlier, which makes the three descriptions exclude each other.
-/

namespace Encounter

variable {e : Encounter}

theorem build_eq_error_iff {defect : Defect} :
    e.build = .error defect ↔ e.defect? = some defect := by
  unfold build
  split
  · next hdefect => rw [hdefect, Except.error.injEq, Option.some.injEq]
  · next hdefect => simp [hdefect]

theorem exists_build_iff : (∃ m, e.build = .ok m) ↔ e.defect? = none := by
  constructor
  · intro h
    obtain ⟨m, hm⟩ := h
    rw [build_eq_ok_iff.mp hm]
    exact m.sound
  · intro h
    exact ⟨⟨e, h⟩, build_eq_ok_iff.mpr rfl⟩

/-- Somebody starts without hit points, and nobody before does. -/
theorem find?_down_eq_some_iff {l : List Fighter} {f : Fighter} :
    l.find? (fun f => f.hp == 0) = some f ↔
      f.hp = 0 ∧ ∃ before after, l = before ++ f :: after ∧ ∀ g ∈ before, 0 < g.hp := by
  simp [List.find?_eq_some_iff_append, UInt32.pos_iff_ne_zero]

theorem find?_down_eq_none_iff {l : List Fighter} :
    l.find? (fun f => f.hp == 0) = none ↔ ∀ f ∈ l, 0 < f.hp := by
  simp [UInt32.pos_iff_ne_zero]

theorem defect?_of_nil (h : e.party = []) : e.defect? = some .emptyParty := by simp [defect?, h]

theorem defect?_of_down (hparty : e.party ≠ []) {f : Fighter}
    (h : e.everybody.find? (fun f => f.hp == 0) = some f) :
    e.defect? = some (.nonPositiveHp f.name) := by
  simp [defect?, hparty, h]

theorem defect?_of_up (hparty : e.party ≠ []) (h : e.everybody.find? (fun f => f.hp == 0) = none) :
    e.defect? = (firstRepeated? [] (e.party.map (·.name))).map .duplicateMember := by
  simp [defect?, hparty, h]

theorem defect?_eq_none_iff :
    e.defect? = none ↔ e.party ≠ [] ∧ (∀ f ∈ e.everybody, 0 < f.hp) ∧
      (e.party.map (·.name)).Nodup := by
  by_cases hparty : e.party = []
  · simp [defect?_of_nil hparty, hparty]
  · rw [← find?_down_eq_none_iff]
    cases hdown : e.everybody.find? (fun f => f.hp == 0) with
    | some f => simp [defect?_of_down hparty hdown]
    | none => simp [defect?_of_up hparty hdown, hparty, firstRepeated?_eq_none_iff, Fresh]

theorem defect?_eq_emptyParty_iff : e.defect? = some .emptyParty ↔ e.party = [] := by
  by_cases hparty : e.party = []
  · simp [defect?_of_nil hparty, hparty]
  · cases hdown : e.everybody.find? (fun f => f.hp == 0) with
    | some f => simp [defect?_of_down hparty hdown, hparty]
    | none => simp [defect?_of_up hparty hdown, hparty]

theorem defect?_eq_nonPositiveHp_iff {name : String} :
    e.defect? = some (.nonPositiveHp name) ↔
      e.party ≠ [] ∧ ∃ before f after, e.everybody = before ++ f :: after ∧
        (∀ g ∈ before, 0 < g.hp) ∧ f.hp = 0 ∧ f.name = name := by
  have hfirst :
      (∃ before f after, e.everybody = before ++ f :: after ∧ (∀ g ∈ before, 0 < g.hp) ∧ f.hp = 0 ∧
        f.name = name) ↔ ∃ f, e.everybody.find? (fun f => f.hp == 0) = some f ∧ f.name = name := by
    simp only [find?_down_eq_some_iff]
    constructor
    · intro h
      obtain ⟨before, f, after, heq, hup, hdown, hname⟩ := h
      exact ⟨f, ⟨hdown, before, after, heq, hup⟩, hname⟩
    · intro h
      obtain ⟨f, ⟨hdown, before, after, heq, hup⟩, hname⟩ := h
      exact ⟨before, f, after, heq, hup, hdown, hname⟩
  rw [hfirst]
  -- the three questions in the order in which they are asked
  by_cases hparty : e.party = []
  · simp [defect?_of_nil hparty, hparty]
  · cases hdown : e.everybody.find? (fun f => f.hp == 0) with
    | some f => simp [defect?_of_down hparty hdown, hparty]
    | none => simp [defect?_of_up hparty hdown]

theorem defect?_eq_duplicateMember_iff {name : String} :
    e.defect? = some (.duplicateMember name) ↔
      e.party ≠ [] ∧ (∀ f ∈ e.everybody, 0 < f.hp) ∧ ∃ before f after,
        e.party = before ++ f :: after ∧
        (before.map (·.name)).Nodup ∧ name ∈ before.map (·.name) ∧ f.name = name := by
  have hsecond : (∃ before f after, e.party = before ++ f :: after ∧ (before.map (·.name)).Nodup ∧
      name ∈ before.map (·.name) ∧ f.name = name) ↔
        firstRepeated? [] (e.party.map (·.name)) = some name := by
    -- the search is over names, and the defect is of the members that have them
    rw [firstRepeated?_eq_some_iff]
    constructor
    · intro h
      obtain ⟨before, f, after, heq, hnodup, hrepeats, hname⟩ := h
      refine ⟨before.map (·.name), after.map (·.name), ?_, ⟨hnodup, by simp⟩, Or.inr hrepeats⟩
      rw [heq, List.map_append, List.map_cons, hname]
    · intro h
      obtain ⟨names, names', heq, ⟨hnodup, -⟩, hrepeats⟩ := h
      obtain ⟨before, rest, hparty, rfl, hrest⟩ := List.map_eq_append_iff.mp heq
      obtain ⟨f, after, rfl, hname, rfl⟩ := List.map_eq_cons_iff.mp hrest
      exact ⟨before, f, after, hparty, hnodup, by simpa using hrepeats, hname⟩
  rw [hsecond, ← find?_down_eq_none_iff]
  by_cases hparty : e.party = []
  · simp [defect?_of_nil hparty, hparty]
  · cases hdown : e.everybody.find? (fun f => f.hp == 0) with
    | some f => simp [defect?_of_down hparty hdown]
    | none => simp [defect?_of_up hparty hdown, hparty]

end Encounter

/-! ## Admission

Being admitted is being without defects. What else there is to say of an encounter that is admitted
is about the stages made of it, whatever their dice and whether they are logged or not. -/

/-- A combatant that is as an encounter describes it, and not hurt. -/
structure Unhurt (f : Fighter) (c : Combatant) : Prop where
  name : c.name = f.name
  hp : c.hp = f.hp.toNat
  maxHp : c.maxHp = f.hp.toNat
  attack : c.attack = f.attack.toNat
  defense : c.defense = f.defense.toNat

theorem unhurt_ofFighter (f : Fighter) : Unhurt f (.ofFighter f) := ⟨rfl, rfl, rfl, rfl, rfl⟩

/-- **Exactly the encounters without a defect are admitted**, and of one with defects the first is
reported: that the party is empty; then the first fighter without hit points, the boss being the
last; then the name that first occurs for a second time in the party. A stage of an encounter that
is admitted starts with everybody as the encounter describes them. -/
theorem build_finds_first_defect (e : Encounter) :
    ((∃ m, e.build = .ok m) ↔
      e.party ≠ [] ∧ (∀ f ∈ e.everybody, 0 < f.hp) ∧ (e.party.map (·.name)).Nodup) ∧
    (e.build = .error .emptyParty ↔ e.party = []) ∧
    (∀ name, e.build = .error (.nonPositiveHp name) ↔
      e.party ≠ [] ∧ ∃ before f after, e.everybody = before ++ f :: after ∧
        (∀ g ∈ before, 0 < g.hp) ∧ f.hp = 0 ∧ f.name = name) ∧
    (∀ name, e.build = .error (.duplicateMember name) ↔
      e.party ≠ [] ∧ (∀ f ∈ e.everybody, 0 < f.hp) ∧ ∃ before f after,
        e.party = before ++ f :: after ∧
        (before.map (·.name)).Nodup ∧ name ∈ before.map (·.name) ∧ f.name = name) ∧
    ∀ m, e.build = .ok m → ∀ {ρ : Type} (dice : ρ) (logging : Bool),
      let bout := m.bout dice logging
      bout.matchup.encounter = e ∧ bout.fight.dice = dice ∧ bout.log = "" ∧
        List.Forall₂ Unhurt e.party bout.fight.party ∧ Unhurt e.boss bout.fight.boss := by
  simp only [Encounter.exists_build_iff, Encounter.build_eq_error_iff]
  refine ⟨Encounter.defect?_eq_none_iff, Encounter.defect?_eq_emptyParty_iff,
    fun _ => Encounter.defect?_eq_nonPositiveHp_iff,
    fun _ => Encounter.defect?_eq_duplicateMember_iff, ?_⟩
  intro m hm ρ dice logging
  obtain rfl := Encounter.build_eq_ok_iff.mp hm
  refine ⟨rfl, rfl, rfl, ?_, unhurt_ofFighter _⟩
  show List.Forall₂ Unhurt _ (List.map Combatant.ofFighter _)
  rw [List.forall₂_map_right_iff]
  exact List.forall₂_same.mpr fun f _ => unhurt_ofFighter f

/-- Three members, the last of whom has the name of the boss. -/
def muster (second : String) (hp : UInt32) : Encounter :=
  ⟨"muster", [⟨"Aria", 3, 1, 0⟩, ⟨second, 4, 1, 0⟩, ⟨"Cleo", hp, 1, 0⟩], ⟨"Cleo", 9, 2, 0⟩, none⟩

theorem build_finds_first_defect_in_muster :
    (muster "Aria" 0).build = .error (.nonPositiveHp "Cleo") ∧
    (muster "Aria" 5).build = .error (.duplicateMember "Aria") ∧
    ∃ m, (muster "Bryn" 5).build = .ok m ∧
      Unhurt ⟨"Cleo", 9, 2, 0⟩ (m.bout () true).fight.boss := by
  obtain ⟨-, -, hdown, -⟩ := build_finds_first_defect (muster "Aria" 0)
  obtain ⟨-, -, -, htwice, -⟩ := build_finds_first_defect (muster "Aria" 5)
  obtain ⟨hadmitted, -, -, -, hstart⟩ := build_finds_first_defect (muster "Bryn" 5)
  refine ⟨(hdown "Cleo").mpr ?_, (htwice "Aria").mpr ?_, ?_⟩
  · exact ⟨by decide, [⟨"Aria", 3, 1, 0⟩, ⟨"Aria", 4, 1, 0⟩], ⟨"Cleo", 0, 1, 0⟩, _,
      rfl, by decide, rfl, rfl⟩
  · exact ⟨by decide, by decide, [⟨"Aria", 3, 1, 0⟩], ⟨"Aria", 4, 1, 0⟩, _,
      rfl, by decide, by decide, rfl⟩
  · obtain ⟨m, hm⟩ := hadmitted.mpr ⟨by decide, by decide, by decide⟩
    obtain ⟨-, -, -, -, hboss⟩ := hstart m hm () true
    exact ⟨m, hm, hboss⟩

end Arena
end CombatTrials
