import CombatTrials.Proofs.Text.Json.Printing
import CombatTrials.Trials.Snapshot

/-!
# Snapshots in JSON

A snapshot is read back from its JSON as it was: every counter over its whole range, every outcome
and turn, any list of entries, and any log and error. Nothing is known of the entries here, neither
that they are in the order of outcomes nor that an outcome occurs once.

The parts of a snapshot are read back whatever the format is that presents them (`Presents`), so
each is looked at once and the results hold of values and of texts (`decode_encode`). What is read
back from two snapshots with the same JSON is the same, so there are no two.
-/

namespace CombatTrials
namespace Trials

open Data (Format Named)
open Text (Json)
open Text.Json (Presents Decodes)
open List (Forall₂)

variable {δ : Type} {f : Format δ} {shows : δ → Json → Prop}

/-! ## Outcomes

An outcome is the only part of a snapshot that is told by a name, and the one whose fields depend on
what was read before. -/

/-- An outcome is known by the name of its kind and its turn, if it has one. -/
theorem Outcome.ofKind?_kindName (o : Outcome) : ofKind? o.kindName o.turn? = some o := by
  cases o <;> rfl

theorem Outcome.kindHasTurn_kindName (o : Outcome) : kindHasTurn o.kindName = o.turn?.isSome := by
  cases o <;> rfl

/-- An outcome is read back in every format that presents it. Whether a turn is looked for depends
on the kind, which is read first. -/
theorem Outcome.decodes (h : Presents f shows) (o : Outcome) :
    Decodes shows (Outcome.read? f) o.toJson o := by
  intro d hd
  have hkind := o.ofKind?_kindName
  have hturn := o.kindHasTurn_kindName
  unfold Outcome.read?
  unfold Outcome.toJson at hd
  cases hcase : o.turn? with
  | none =>
    rw [hcase] at hd hkind hturn
    obtain ⟨contents, htagged, hcontents⟩ := h.tagged hd (by simp) (by simp)
    obtain ⟨nodes, hnodes, -⟩ := h.members "" [] 0 hcontents (by simp)
    simp only [htagged, hnodes, hturn, hkind, Option.bind_eq_bind, Option.bind_some,
      Option.isSome_none, Bool.false_eq_true, if_false]
  | some turn =>
    rw [hcase] at hd hkind hturn
    -- a turn is small enough to be kept before its type is known
    have hcount : turn.toNat < 2 ^ 53 := Nat.lt_trans turn.toNat_lt (by decide)
    obtain ⟨contents, htagged, hcontents⟩ := h.tagged hd (by simp) (by simpa using hcount)
    obtain ⟨nodes, hnodes, hshown⟩ := h.members "" ["turn"] 1 hcontents (by simp)
    have hread := Decodes.required "turn" hshown rfl (h.word32 turn)
    simp only [htagged, hnodes, hturn, hread, hkind, Option.bind_eq_bind, Option.bind_some,
      Option.isSome_some, if_true]

/-! ## Entries

Entries and what is made of them, read field by field. -/

theorem Entry.decodes (h : Presents f shows) (e : Entry) :
    Decodes shows (Entry.read? f) e.toJson e := by
  intro d hd
  obtain ⟨nodes, hnodes, hshown⟩ := h.members "" ["outcome", "count"] 2 hd (by simp)
  have houtcome := Decodes.required "outcome" hshown rfl (Outcome.decodes h e.outcome)
  have hcount := Decodes.required "count" hshown rfl (h.word64 e.count)
  unfold Entry.read?
  simp only [hnodes, houtcome, hcount, Option.bind_eq_bind, Option.bind_some, Option.pure_def]

/-! ## Snapshots

The fields are read in the same way from an object and from a list, where the place of a field
stands for its name. What remains is that a text has room for the nesting of a snapshot. -/

namespace Snapshot

/-- A reader that finds the fields of a snapshot finds the snapshot. -/
theorem read?_of_fields (h : Presents f shows) {s : Snapshot} {d : δ} {nodes : List (String × δ)}
    (hnodes : f.fields? "" fieldNames fieldNames.length d = some nodes)
    (hshown : Forall₂ (Named shows) nodes (fieldNames.zip s.fieldValues)) : read? f d = some s := by
  have hasked := Decodes.required "max_iterations" hshown rfl (h.word32 s.maxIterations)
  have hcompleted :=
    Decodes.required "completed_iterations" hshown rfl (h.word32 s.completedIterations)
  have hentries := Decodes.required "histogram" hshown rfl (h.listOf (Entry.decodes h))
  have hlog := Decodes.defaulted "full_log" none hshown rfl (h.optionalText s.fullLog)
  have hcancelled := Decodes.required "cancelled" hshown rfl (h.boolean s.cancelled)
  have herror := Decodes.defaulted "error" none hshown rfl (h.optionalText s.error)
  unfold read?
  simp only [hnodes, hasked, hcompleted, hentries, hlog, hcancelled, herror, Option.bind_eq_bind,
    Option.bind_some, Option.pure_def]

theorem decodes_object (h : Presents f shows) (s : Snapshot) :
    Decodes shows (read? f) s.toJson s := by
  intro d hd
  obtain ⟨nodes, hnodes, hshown⟩ :=
    h.members "" fieldNames fieldNames.length hd (show fieldNames.Nodup by decide)
  exact read?_of_fields h hnodes hshown

/-- A snapshot is read back from the list of its fields, in the order of their declaration. -/
theorem decodes_list (h : Presents f shows) (s : Snapshot) :
    Decodes shows (read? f) (.list s.fieldValues) s := by
  intro d hd
  obtain ⟨nodes, hnodes, hshown⟩ := h.positional "" fieldNames hd rfl
  exact read?_of_fields h hnodes hshown

theorem height_histogram (entries : List Entry) :
    Json.heightOfItems (entries.map Entry.toJson) ≤ 2 := by
  induction entries with
  | nil => exact Nat.zero_le _
  | cons e entries ih =>
    rw [List.map_cons, Json.heightOfItems]
    refine Nat.max_le.mpr ⟨?_, ih⟩
    obtain ⟨outcome, count⟩ := e
    cases outcome <;> exact Nat.le_refl _

theorem height_fields (s : Snapshot) :
    (Json.list s.fieldValues).height ≤ 4 ∧ s.toJson.height = (Json.list s.fieldValues).height := by
  have hhistogram := height_histogram s.histogram
  have htext : ∀ text, (Json.ofText? text).height = 0 := by
    intro text
    cases text <;> rfl
  simp only [toJson, fieldValues, fieldNames, List.zip_cons_cons, List.zip_nil_right, Json.height,
    Json.heightOfItems, Json.heightOfFields, htext]
  exact ⟨by omega, trivial⟩

/-- A value from which every format finds the snapshot is one from whose texts it is read. -/
theorem readTyped?_of_decodes {s : Snapshot} {j : Json} (hheight : j.height ≤ 4)
    (h : Decodes Json.Node.Shows (read? Json.documentFormat) j s) {text : String}
    (htext : Json.Term.read? text = some j.toTerm) : Json.readTyped? read? text = some s := by
  have hroom : j.height ≤ Json.depthLimit := Nat.le_trans hheight (by decide)
  have hshown : Json.Node.Shows ⟨j.toTerm, Json.depthLimit⟩ j := ⟨rfl, hroom⟩
  unfold Json.readTyped?
  simp only [htext, Option.bind_eq_bind, Option.bind_some, h _ hshown]

/-- A snapshot is what is read from its JSON, as a value and as a text of either form, and from the
list of its fields in the order of their declaration. So it is known by its JSON. -/
theorem decode_encode :
    (∀ s : Snapshot, read? Json.format s.toJson = some s ∧
      read? Json.format (.list s.fieldValues) = some s ∧
      Json.readTyped? read? s.toJson.compact = some s ∧
      Json.readTyped? read? s.toJson.pretty = some s ∧
      Json.readTyped? read? (Json.list s.fieldValues).compact = some s ∧
      Json.readTyped? read? (Json.list s.fieldValues).pretty = some s) ∧
    Function.Injective toJson ∧ Function.Injective (fun s : Snapshot => s.toJson.compact) ∧
    Function.Injective (fun s : Snapshot => s.toJson.pretty) := by
  have hvalue (s : Snapshot) : read? Json.format s.toJson = some s :=
    decodes_object Json.presents_values s _ rfl
  have hlist (s : Snapshot) : read? Json.format (.list s.fieldValues) = some s :=
    decodes_list Json.presents_values s _ rfl
  have hheight (s : Snapshot) : s.toJson.height ≤ 4 := s.height_fields.2 ▸ s.height_fields.1
  have htext (s : Snapshot) {text : String} (h : Json.Term.read? text = some s.toJson.toTerm) :
      Json.readTyped? read? text = some s :=
    readTyped?_of_decodes (hheight s) (decodes_object Json.presents_documents s) h
  have hlistText (s : Snapshot) {text : String}
      (h : Json.Term.read? text = some (Json.list s.fieldValues).toTerm) :
      Json.readTyped? read? text = some s :=
    readTyped?_of_decodes s.height_fields.1 (decodes_list Json.presents_documents s) h
  -- what can be read back is written in one way only
  have hinjective {β : Type} (write : Snapshot → β) (read : β → Option Snapshot)
      (h : ∀ s, read (write s) = some s) : Function.Injective write := fun s s' heq =>
    Option.some.inj (by rw [← h s, ← h s', heq])
  refine ⟨fun s => ⟨hvalue s, hlist s, ?_, ?_, ?_, ?_⟩, ?_, ?_, ?_⟩
  · exact htext s (Json.read?_compact _)
  · exact htext s (Json.read?_pretty _)
  · exact hlistText s (Json.read?_compact _)
  · exact hlistText s (Json.read?_pretty _)
  · exact hinjective _ _ hvalue
  · exact hinjective _ (Json.readTyped? read?) fun s => htext s (Json.read?_compact _)
  · exact hinjective _ (Json.readTyped? read?) fun s => htext s (Json.read?_pretty _)

end Snapshot
end Trials
end CombatTrials
