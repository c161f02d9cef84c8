import CombatTrials.Arena.Strategy
import CombatTrials.Proofs.Script.Plain

/-!
# What a turn binds

The body of a strategy starts from the variables that the initializer left, with nine names bound
over them (`turnNames`). Of the nine, the number of the turn is plain, and eight are objects made
for this turn, numbered in the order in which they are bound. So a variable with another name is as
the initializer left it, and one of the nine has the value that the turn gave it, whatever it had
before.

The objects do not lead to any others: the attributes of a record are plain, and a function has
none. So all that a body can get hold of is plain data and the eight objects themselves (`Own`).
-/

namespace CombatTrials
namespace Arena

open Script (Value Object Scope)

variable {ρ : Type}

/-! ## Binding objects

Objects are bound one by one, each under a fresh identity, which is its place in the list. Where all
names are different the order does not show in what is found. -/

theorem find?_bindObjects_of_not_mem {x : String} {objects : List (String × Object Action)}
    (h : x ∉ objects.map Prod.fst) (scope : Scope Action) (identity : Nat) :
    (bindObjects scope identity objects).find? x = scope.find? x := by
  induction objects generalizing scope identity with
  | nil => rfl
  | cons first rest ih =>
    simp only [List.map_cons, List.mem_cons, not_or] at h
    obtain ⟨hne, hrest⟩ := h
    exact (ih hrest _ _).trans (Scope.find?_set_ne hne scope _)

/-- An object is found under its name with its place in the list as its identity, since no later
object has that name. -/
theorem find?_bindObjects_of_getElem? {x : String} {body : Object Action}
    {objects : List (String × Object Action)}
    {i : Nat} (hnodup : (objects.map Prod.fst).Nodup) (h : objects[i]? = some (x, body))
    (scope : Scope Action) (identity : Nat) :
    (bindObjects scope identity objects).find? x = some (.object (identity + i) body) := by
  induction objects generalizing scope identity i with
  | nil => simp at h
  | cons first rest ih =>
    simp only [List.map_cons, List.nodup_cons] at hnodup
    obtain ⟨hfirst, hrest⟩ := hnodup
    cases i with
    -- bound first, and nothing behind it is bound to the same name
    | zero =>
      simp only [List.getElem?_cons_zero, Option.some.injEq] at h
      subst h
      exact (find?_bindObjects_of_not_mem hfirst _ _).trans (Scope.find?_set_self scope x _)
    | succ i =>
      simp only [List.getElem?_cons_succ] at h
      have hlater := ih hrest h (scope.set first.1 (.object identity first.2)) (identity + 1)
      rw [show identity + (i + 1) = identity + 1 + i by omega]
      exact hlater

/-! ## The nine names

The names are written out once, in the order in which the turn binds them. All else that is said of
them comes from that list: that no name occurs twice, that each of them is bound, and that nothing
else is. -/

/-- The names that a turn binds. -/
def turnNames : List String :=
  ["turn", "boss", "party", "leader", "weakest", "attack", "guard", "heal", "exclude"]

variable {globals : Scope Action} {number : UInt32} {fight : Fight ρ} {x : String}

/-- The number of the turn comes first, and then the objects in their order. -/
theorem turnNames_eq (fight : Fight ρ) :
    turnNames = "turn" :: (turnObjects fight).map Prod.fst := rfl

theorem nodup_names (fight : Fight ρ) : ((turnObjects fight).map Prod.fst).Nodup := by
  show (turnNames.drop 1).Nodup
  decide

theorem find?_bindTurn_of_not_mem (h : x ∉ turnNames) :
    (bindTurn globals number fight).find? x = globals.find? x := by
  rw [turnNames_eq fight, List.mem_cons, not_or] at h
  obtain ⟨hne, hobjects⟩ := h
  exact (find?_bindObjects_of_not_mem hobjects _ 0).trans (Scope.find?_set_ne hne globals _)

theorem find?_bindTurn_turn :
    (bindTurn globals number fight).find? "turn" = some (.number (Float.ofNat number.toNat)) := by
  have hname : "turn" ∉ (turnObjects fight).map Prod.fst := by
    show "turn" ∉ turnNames.drop 1
    decide
  exact (find?_bindObjects_of_not_mem hname _ 0).trans (Scope.find?_set_self globals "turn" _)

/-- Every object of the turn is bound, by its place. -/
theorem find?_bindTurn_object {i : Nat} {body : Object Action}
    (h : (turnObjects fight)[i]? = some (x, body)) :
    (bindTurn globals number fight).find? x = some (.object i body) := by
  have hbound := find?_bindObjects_of_getElem? (nodup_names fight) h
    (globals.set "turn" (.number (Float.ofNat number.toNat))) 0
  rwa [Nat.zero_add] at hbound

theorem eq_turn_or_exists_object (fight : Fight ρ) (h : x ∈ turnNames) :
    x = "turn" ∨ ∃ (i : Nat) (body : Object Action), (turnObjects fight)[i]? = some (x, body) := by
  rw [turnNames_eq fight, List.mem_cons, List.mem_map] at h
  refine h.imp_right ?_
  intro hobject
  obtain ⟨⟨name, body⟩, hmem, rfl⟩ := hobject
  obtain ⟨i, hi⟩ := List.mem_iff_getElem?.mp hmem
  exact ⟨i, body, hi⟩

/-- All nine names are bound on every turn, whatever the initializer did. -/
theorem contains_bindTurn (h : x ∈ turnNames) :
    (bindTurn globals number fight).contains x = true := by
  unfold Scope.contains
  rcases eq_turn_or_exists_object fight h with rfl | ⟨i, body, hi⟩
  · rw [find?_bindTurn_turn]
    rfl
  · rw [find?_bindTurn_object hi]
    rfl

/-- What the initializer bound to one of the nine names is not seen on any turn. -/
theorem find?_bindTurn_congr_globals {globals' : Scope Action}
    (h : ∀ x, x ∉ turnNames → globals.find? x = globals'.find? x) (x : String) :
    (bindTurn globals number fight).find? x = (bindTurn globals' number fight).find? x := by
  by_cases hx : x ∈ turnNames
  · rcases eq_turn_or_exists_object fight hx with rfl | ⟨i, body, hi⟩
    · rw [find?_bindTurn_turn, find?_bindTurn_turn]
    · rw [find?_bindTurn_object hi, find?_bindTurn_object hi]
  · rw [find?_bindTurn_of_not_mem hx, find?_bindTurn_of_not_mem hx, h x hx]

/-! ## What a body can get hold of

The invariant of a turn: a body that only holds what is its own never comes to hold anything else.
Reading attributes is the one way from one object to others, and it leads to plain data at once. -/

/-- A value that a body can get hold of on a turn: plain data, or an object that was made for this
turn. -/
inductive Own (fight : Fight ρ) : Value Action → Prop
  | plain {v : Value Action} (h : v.isPlain = true) : Own fight v
  | object {i : Nat} {name : String} {body : Object Action}
      (h : (turnObjects fight)[i]? = some (name, body)) : Own fight (.object i body)

/-- A ledger that was filled with plain data gives plain data back. -/
theorem plain_of_find?_ofList {entries : List (String × Value Action)} {name : String}
    {v : Value Action} (hplain : ∀ entry ∈ entries, entry.2.isPlain = true)
    (h : (Data.Ledger.ofList entries).find? name = some v) : v.isPlain = true := by
  rw [Data.Ledger.find?_ofList] at h
  have hmem : v ∈ Data.Ledger.entriesOf name entries := List.mem_of_getLast? h
  unfold Data.Ledger.entriesOf at hmem
  obtain ⟨entry, hentry, hsome⟩ := List.mem_filterMap.mp hmem
  split at hsome
  · exact Option.some.inj hsome ▸ hplain entry hentry
  · cases hsome

/-- The objects of a turn are functions that request an action, and records of plain data. -/
theorem turnObjects_cases {entry : String × Object Action} (h : entry ∈ turnObjects fight) :
    (∃ action, entry.2 = actionFunction action) ∨
      ∃ typeName attributes, entry.2 = .record typeName (Data.Ledger.ofList attributes) ∧
        ∀ entry ∈ attributes, entry.2.isPlain = true := by
  have hcombatant : ∀ c, ∃ typeName attributes,
      combatantRecord c = .record typeName (Data.Ledger.ofList attributes) ∧
        ∀ entry ∈ attributes, entry.2.isPlain = true :=
    fun c => ⟨"actor", _, rfl, by simp [Value.isPlain]⟩
  have hparty : ∃ typeName attributes,
      partyRecord fight.party = .record typeName (Data.Ledger.ofList attributes) ∧
        ∀ entry ∈ attributes, entry.2.isPlain = true :=
    ⟨"party", _, rfl, by simp [Value.isPlain]⟩
  -- the boss, the party, the leader and the weakest, and after them the four functions
  simp only [turnObjects, List.mem_cons, List.not_mem_nil, or_false] at h
  rcases h with rfl | rfl | rfl | rfl | rfl | rfl | rfl | rfl
  · exact Or.inr (hcombatant _)
  · exact Or.inr hparty
  · exact Or.inr (hcombatant _)
  · exact Or.inr (hcombatant _)
  · exact Or.inl ⟨.attack, rfl⟩
  · exact Or.inl ⟨.guard, rfl⟩
  · exact Or.inl ⟨.heal, rfl⟩
  · exact Or.inl ⟨.exclude, rfl⟩

/-- An attribute of anything that a body can get hold of is plain, so there is no way from one
object to another. -/
theorem Own.isPlain_of_getAttribute {v w : Value Action} {name : String} (h : Own fight v)
    (hw : v.getAttribute name = .ok w) : w.isPlain = true := by
  cases h with
  | plain hplain =>
    rw [Value.getAttribute_of_plain hplain] at hw
    cases hw
  | object hi =>
    simp only [Value.getAttribute] at hw
    split at hw
    · next hfind =>
      cases hw
      -- a function has no attributes to read, so what was read is of a record
      rcases turnObjects_cases (List.mem_of_getElem? hi) with
        ⟨action, heq⟩ | ⟨typeName, attributes, heq, hplain⟩
      · dsimp only at heq
        subst heq
        cases hfind
      · dsimp only at heq
        subst heq
        exact plain_of_find?_ofList hplain hfind
    · cases hw

/-- A function of the turn requests an action and takes no arguments. -/
theorem Own.exists_action {identity : Nat} {f : Script.Native Action}
    (h : Own fight (.object identity (.native f))) :
    ∃ action : Action, f = ⟨action.name, some 0, action⟩ := by
  cases h with
  | plain hplain => cases hplain
  | object hi =>
    rcases turnObjects_cases (List.mem_of_getElem? hi) with
      ⟨action, heq⟩ | ⟨typeName, attributes, heq, -⟩
    · exact ⟨action, Object.native.inj heq⟩
    · cases heq

/-- The objects that a turn starts from are its own, each bound to its name. -/
theorem getElem?_of_find?_bindTurn (hplain : globals.Plain) {i : Nat} {body : Object Action}
    (h : (bindTurn globals number fight).find? x = some (.object i body)) :
    (turnObjects fight)[i]? = some (x, body) := by
  by_cases hx : x ∈ turnNames
  · rcases eq_turn_or_exists_object fight hx with rfl | ⟨j, body', hj⟩
    · rw [find?_bindTurn_turn] at h
      cases h
    · rw [find?_bindTurn_object hj] at h
      cases h
      exact hj
  · rw [find?_bindTurn_of_not_mem hx] at h
    cases hplain x _ h

/-- What a turn starts from, where the initializer left plain data. -/
theorem own_bindTurn (hplain : globals.Plain) {v : Value Action}
    (h : (bindTurn globals number fight).find? x = some v) : Own fight v := by
  -- the globals are plain, so an object can only have come from the turn itself
  cases v with
  | number | boolean => exact .plain rfl
  | object i body => exact .object (getElem?_of_find?_bindTurn hplain h)

/-! ## What the initializer leaves

An initializer is run before there is a turn, with no object bound to anything, so that all it
leaves is what it can write down. -/

theorem plain_globals {strategy : Option Script.Program} (h : globalsOf strategy = .ok globals) :
    globals.Plain := by
  cases strategy with
  | none =>
    cases h
    exact Scope.plain_empty
  | some script =>
    -- an initializer starts without any variables, which is plain enough
    have hkept : ((script.runInitializer actionHost).run.run ({}, default)).2.1.Plain := by
      unfold Script.Program.runInitializer
      cases script.initializer with
      | none => exact Scope.plain_empty
      | some s => exact (s.account_of_plain actionHost default Scope.plain_empty).1
    rcases hrun : (script.runInitializer actionHost).run.run ({}, default) with ⟨_ | _, _⟩
    · simp only [globalsOf, hrun] at h
      cases h
    · simp only [globalsOf, hrun] at h
      rw [hrun] at hkept
      cases h
      exact hkept

end Arena
end CombatTrials
