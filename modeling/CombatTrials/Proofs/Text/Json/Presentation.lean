import CombatTrials.Proofs.Data.Fields
import CombatTrials.Proofs.Numeric.Finite
import CombatTrials.Text.Json.Format

/-!
# How a node shows a JSON value

Typed data is read from two formats of JSON, that of values and that of texts. What makes a reader
find again what was written is the same in both, and `Presents` says what it is: a node that shows
an object shows its fields, one that shows a list shows the items, and so on for everything that the
readers ask for. A value shows itself (`presents_values`). In a text a value is shown by its term,
wherever there is room for its height (`presents_documents`).

`Decodes` is then said of a reader and a value: every node that shows the value is read alike. It is
proved once for each kind of data and holds in both formats.
-/

namespace CombatTrials
namespace Text
namespace Json

open Data (Named)
open List (Forall₂)

/-! ## What a format presents

Both formats are asked the same questions by the readers of typed data. The structure lists them,
with what has to be answered by a node that shows a value. -/

variable {δ α : Type}

/-- A format whose nodes show JSON values. -/
structure Presents (f : Data.Format δ) (shows : δ → Json → Prop) : Prop where
  boolean? : ∀ {d b}, shows d (.boolean b) → f.boolean? d = some b
  natural? : ∀ {d n}, shows d (.natural n) → f.natural? d = some n
  text? : ∀ {d s}, shows d (.text s) → f.text? d = some s
  absent : ∀ {d}, shows d .null → f.optional? d = some none
  present : ∀ {d s}, shows d (.text s) → f.optional? d = some (some d)
  list? : ∀ {d items}, shows d (.list items) → ∃ nodes, f.list? d = some nodes ∧
    Forall₂ shows nodes items
  /-- The fields of an object, if no name is repeated. -/
  members : ∀ {d fields} typeName declared least, shows d (.object fields) →
    (fields.map Prod.fst).Nodup →
    ∃ nodes, f.fields? typeName declared least d = some nodes ∧ Forall₂ (Named shows) nodes fields
  /-- The items of a list, as the fields in the order of their declaration. -/
  positional : ∀ {d items} typeName declared, shows d (.list items) →
    items.length = declared.length →
    ∃ nodes, f.fields? typeName declared declared.length d = some nodes ∧
      Forall₂ (Named shows) nodes (declared.zip items)
  /-- A case with its name in front of other fields, which are counts. -/
  tagged : ∀ {d tag kind fields}, shows d (.object ((tag, .text kind) :: fields)) →
    tag ∉ fields.map Prod.fst →
    (∀ field ∈ fields, ∃ n < 2 ^ 53, field.2 = .natural n) →
    ∃ d', f.tagged? tag d = some (kind, d') ∧ shows d' (.object fields)

/-- Every node that shows the value is read as `a`. -/
def Decodes (shows : δ → Json → Prop) (read : δ → Option α) (j : Json) (a : α) : Prop :=
  ∀ d, shows d j → read d = some a

/-! ## Values

The format of values answers from the value itself. Nothing is lost, and there is no bound on depth.
-/

theorem fieldsOf?_of_nodup {fields : List (String × δ)} (declared : List String)
    (h : (fields.map Prod.fst).Nodup) : fieldsOf? declared fields = some fields :=
  if_pos (Data.declaredOnce_of_nodup declared h)

theorem positionalFields?_of_length {declared : List String} {items : List δ}
    (h : items.length = declared.length) :
    positionalFields? declared declared.length items = some (declared.zip items) := by
  unfold positionalFields?
  rw [if_pos (by simp [h])]

/-- Of fields behind one of a name, none of which has it, the name picks out that one and leaves the
others. -/
theorem filter_tag {tag : String} {d : δ} {fields : List (String × δ)}
    (h : tag ∉ fields.map Prod.fst) :
    onlyField? tag ((tag, d) :: fields) = some d ∧
      ((tag, d) :: fields).filter (·.1 != tag) = fields := by
  have hother : ∀ field ∈ fields, field.1 ≠ tag := fun field hfield heq =>
    h (heq ▸ List.mem_map_of_mem hfield)
  have hnone : fields.filter (·.1 == tag) = [] :=
    List.filter_eq_nil_iff.mpr fun field hfield => by simpa using hother field hfield
  have hall : fields.filter (·.1 != tag) = fields :=
    List.filter_eq_self.mpr fun field hfield => by simpa using hother field hfield
  refine ⟨?_, ?_⟩
  · unfold onlyField?
    rw [List.filter_cons_of_pos (by simp), hnone]
  · rw [List.filter_cons_of_neg (by simp), hall]

/-- A value presents itself. -/
theorem presents_values : Presents format Eq where
  boolean? := by
    rintro _ b rfl
    rfl
  natural? := by
    rintro _ n rfl
    rfl
  text? := by
    rintro _ s rfl
    rfl
  absent := by
    rintro _ rfl
    rfl
  present := by
    rintro _ s rfl
    rfl
  list? := by
    rintro _ items rfl
    exact ⟨items, rfl, List.forall₂_same.mpr fun _ _ => rfl⟩
  -- members, positions and kinds are the questions that look further than the value
  members := by
    rintro _ fields typeName declared least rfl hnodup
    exact ⟨fields, fieldsOf?_of_nodup declared hnodup, List.forall₂_same.mpr fun _ _ => ⟨rfl, rfl⟩⟩
  positional := by
    rintro _ items typeName declared rfl hlength
    exact ⟨_, positionalFields?_of_length hlength, List.forall₂_same.mpr fun _ _ => ⟨rfl, rfl⟩⟩
  tagged := by
    rintro _ tag kind fields rfl htag -
    obtain ⟨honly, hothers⟩ := filter_tag (d := Json.text kind) htag
    refine ⟨.object fields, ?_, rfl⟩
    show tagged? tag (.object _) = _
    unfold tagged?
    simp only [honly, hothers]

/-! ## Texts

The format of texts answers from a term and from the levels that may still be opened. A value has to
have room for its height, and its parts have a level less each. -/

mutual

/-- The term that a text of the value shows. -/
def toTerm : Json → Term
  | .list items => .list (toTerms items)
  | .object fields => .object (toFields fields)
  | j => .scalar j

/-- The terms of items. -/
def toTerms : List Json → List Term
  | [] => []
  | j :: rest => j.toTerm :: toTerms rest

/-- The terms of fields. -/
def toFields : List (String × Json) → List (Option String × Term)
  | [] => []
  | (name, j) :: rest => (some name, j.toTerm) :: toFields rest

end

theorem toTerms_eq_map (items : List Json) : toTerms items = items.map toTerm := by
  induction items with
  | nil => rfl
  | cons j rest ih => rw [toTerms, ih, List.map_cons]

theorem toFields_eq_map (fields : List (String × Json)) :
    toFields fields = fields.map fun (name, j) => (some name, j.toTerm) := by
  induction fields with
  | nil => rfl
  | cons field rest ih =>
    obtain ⟨name, j⟩ := field
    rw [toFields, ih, List.map_cons]

/-- No item is higher than the items are together. -/
theorem height_le_heightOfItems {j : Json} {items : List Json} (h : j ∈ items) :
    j.height ≤ heightOfItems items := by
  induction items with
  | nil => nomatch h
  | cons first rest ih =>
    rw [heightOfItems]
    rcases List.mem_cons.mp h with rfl | hrest
    · exact Nat.le_max_left _ _
    · exact Nat.le_trans (ih hrest) (Nat.le_max_right _ _)

/-- No field is higher than the fields are together. -/
theorem height_le_heightOfFields {field : String × Json} {fields : List (String × Json)}
    (h : field ∈ fields) : field.2.height ≤ heightOfFields fields := by
  induction fields with
  | nil => nomatch h
  | cons first rest ih =>
    obtain ⟨name, j⟩ := first
    rw [heightOfFields]
    rcases List.mem_cons.mp h with rfl | hrest
    · exact Nat.le_max_left _ _
    · exact Nat.le_trans (ih hrest) (Nat.le_max_right _ _)

/-- A node of a text that shows a value: it has the value's term, and levels enough are left for
it. -/
def Node.Shows (n : Node) (j : Json) : Prop := n.term = j.toTerm ∧ j.height ≤ n.room

theorem Node.exists_list {n : Node} {items : List Json} (h : n.Shows (.list items)) :
    ∃ nodes, n.list? = some nodes ∧ Forall₂ Shows nodes items := by
  obtain ⟨term, room⟩ := n
  obtain ⟨rfl, hroom⟩ : term = .list (toTerms items) ∧ heightOfItems items + 1 ≤ room := h
  obtain ⟨room, rfl⟩ : ∃ r, room = r + 1 := ⟨room - 1, by omega⟩
  refine ⟨items.map fun j => ⟨j.toTerm, room⟩, ?_, ?_⟩
  · rw [toTerms_eq_map]
    show some ((items.map toTerm).map _) = _
    rw [List.map_map]
    rfl
  · rw [List.forall₂_map_left_iff]
    refine List.forall₂_same.mpr fun j hj => ⟨rfl, ?_⟩
    -- an item is no higher than all of them, and a level is spent on the list
    have := height_le_heightOfItems hj
    show j.height ≤ room
    omega

/-- A node that shows an object shows its fields, each with a level less to open. -/
theorem Node.exists_object {n : Node} {fields : List (String × Json)}
    (h : n.Shows (.object fields)) :
    n.list? = none ∧ ∃ nodes, n.object? = some nodes ∧ Forall₂ (Named Shows) nodes fields := by
  obtain ⟨term, room⟩ := n
  obtain ⟨rfl, hroom⟩ : term = .object (toFields fields) ∧ heightOfFields fields + 1 ≤ room := h
  obtain ⟨room, rfl⟩ : ∃ r, room = r + 1 := ⟨room - 1, by omega⟩
  refine ⟨rfl, fields.map fun (name, j) => (name, ⟨j.toTerm, room⟩), ?_, ?_⟩
  · rw [toFields_eq_map]
    refine Data.mapM_eq_some ?_
    rw [List.forall₂_map_left_iff, List.forall₂_map_right_iff]
    exact List.forall₂_same.mpr fun _ _ => rfl
  · rw [List.forall₂_map_left_iff]
    refine List.forall₂_same.mpr fun field hfield => ⟨rfl, rfl, ?_⟩
    have := height_le_heightOfFields hfield
    show field.2.height ≤ room
    omega

/-- A count may be kept before its type is known, being small enough for a finite number. -/
theorem Node.isWhole_of_count {d : Node} {n : Nat} (h : d.Shows (.natural n)) (hn : n < 2 ^ 53) :
    d.isWhole = true := by
  obtain ⟨term, room⟩ := d
  obtain ⟨rfl, -⟩ := h
  have hfinite := Numeric.isFinite_toFloat_natural hn
  show (real? (.natural n)).isSome = true
  simp only [real?, Option.bind_eq_bind, Option.bind_some, if_pos hfinite, Option.isSome_some]

theorem toFields_of_forall₂ {nodes : List (String × Node)} {fields : List (String × Json)}
    (h : Forall₂ (Named Node.Shows) nodes fields) :
    (nodes.map fun (name, d) => (some name, d.term)) = toFields fields := by
  rw [toFields_eq_map]
  induction h with
  | nil => rfl
  | @cons field shown _ _ hfirst _ ih =>
    obtain ⟨name, d⟩ := field
    obtain ⟨name', j⟩ := shown
    obtain ⟨rfl, hterm, -⟩ : name = name' ∧ d.term = j.toTerm ∧ _ := hfirst
    rw [List.map_cons, List.map_cons, ih]
    dsimp only
    rw [hterm]

/-- A node that shows an object with a kind in front shows the kind and the other fields. -/
theorem Node.exists_tagged {n : Node} {tag kind : String} {fields : List (String × Json)}
    (h : n.Shows (.object ((tag, .text kind) :: fields))) (htag : tag ∉ fields.map Prod.fst)
    (hcounts : ∀ field ∈ fields, ∃ n < 2 ^ 53, field.2 = .natural n) :
    ∃ d', n.tagged? tag = some (kind, d') ∧ d'.Shows (.object fields) := by
  obtain ⟨hlist, nodes, hobject, hnodes⟩ := exists_object h
  rcases hnodes with _ | ⟨hfirst, hrest⟩
  next first rest =>
  obtain ⟨name, d⟩ := first
  obtain ⟨rfl, hd, -⟩ : name = tag ∧ d.term = .scalar (.text kind) ∧ _ := hfirst
  obtain ⟨honly, hothers⟩ := filter_tag (d := d) (Data.names_of_named hrest ▸ htag)
  -- the other fields are kept before their types are known, so their numbers must be finite
  have hwhole : rest.all (·.2.isWhole) = true := by
    refine List.all_eq_true.mpr fun field hfield => ?_
    obtain ⟨shown, hshown, -, hshows⟩ := Data.exists_of_mem hrest hfield
    obtain ⟨count, hcount, hvalue⟩ := hcounts shown hshown
    exact isWhole_of_count (hvalue ▸ hshows) hcount
  refine ⟨⟨.object (rest.map fun (name, d) => (some name, d.term)), n.room⟩, ?_, ?_, ?_⟩
  · unfold Node.tagged?
    simp only [hlist, hobject, Node.readScalar?, Option.bind_eq_bind, Option.bind_some, honly, hd,
      hothers, hwhole]
    rfl
  · rw [toFields_of_forall₂ hrest]
    rfl
  · -- the other fields are no higher without the kind
    have hroom := h.2
    show heightOfFields fields + 1 ≤ n.room
    have hheight : (Json.object ((name, .text kind) :: fields)).height =
        max 0 (heightOfFields fields) + 1 := rfl
    omega

/-- A text presents the values that its nodes show. -/
theorem presents_documents : Presents documentFormat Node.Shows where
  boolean? {d b} h := by
    show d.term.scalar?.bind boolean? = some b
    rw [h.1]
    rfl
  natural? {d n} h := by
    show d.term.scalar?.bind natural? = some n
    rw [h.1]
    rfl
  text? {d s} h := by
    show d.term.scalar?.bind text? = some s
    rw [h.1]
    rfl
  absent {d} h := by
    show Node.optional? d = some none
    unfold Node.optional?
    rw [h.1]
    rfl
  present {d s} h := by
    show Node.optional? d = some (some d)
    unfold Node.optional?
    rw [h.1]
    rfl
  list? h := Node.exists_list h
  -- a list may stand for an object as well, and here there is none
  members {d fields} typeName declared least h hnodup := by
    obtain ⟨hlist, nodes, hobject, hnodes⟩ := Node.exists_object h
    refine ⟨nodes, ?_, hnodes⟩
    show Node.members? declared least d = some nodes
    unfold Node.members?
    simp only [hlist, hobject]
    exact fieldsOf?_of_nodup declared (Data.names_of_named hnodes ▸ hnodup)
  positional {d items} typeName declared h hlength := by
    obtain ⟨nodes, hlist, hnodes⟩ := Node.exists_list h
    refine ⟨declared.zip nodes, ?_, Data.named_zip declared hnodes⟩
    show Node.members? declared declared.length d = some _
    unfold Node.members?
    simp only [hlist]
    exact positionalFields?_of_length (hnodes.length_eq.trans hlength)
  tagged h htag hcounts := Node.exists_tagged h htag hcounts

/-! ## Reading what is shown

From here on neither format is looked at. What is read of a list or of an optional value follows
from what is read of its parts. -/

variable {f : Data.Format δ} {shows : δ → Json → Prop} {read : δ → Option α}

namespace Presents

variable (h : Presents f shows)

include h

theorem word32 (w : UInt32) : Decodes shows f.word32? (.natural w.toNat) w := fun _ hd =>
  Data.word32?_of_natural? (h.natural? hd)

theorem word64 (w : UInt64) : Decodes shows f.word64? (.natural w.toNat) w := fun _ hd =>
  Data.word64?_of_natural? (h.natural? hd)

theorem boolean (b : Bool) : Decodes shows f.boolean? (.boolean b) b := fun _ hd => h.boolean? hd

theorem listOf {toJson : α → Json} {as : List α} (hread : ∀ a, Decodes shows read (toJson a) a) :
    Decodes shows (f.listOf? read) (.list (as.map toJson)) as := by
  intro d hd
  obtain ⟨nodes, hnodes, hshown⟩ := h.list? hd
  rw [List.forall₂_map_right_iff] at hshown
  exact Data.listOf?_of_list? hnodes (hshown.imp fun d a hda => hread a d hda)

theorem optionalText (s : Option String) : Decodes shows (f.optionalOf? f.text?) (ofText? s) s := by
  intro d hd
  cases s with
  | none => exact Data.optionalOf?_of_absent (h.absent hd)
  | some s =>
    have hd : shows d (.text s) := hd
    exact Data.optionalOf?_of_present (h.present hd) (h.text? hd)

end Presents

/-! ## Fields of what is shown

Fields are found by name among those shown, whose names are those of the value. -/

theorem Decodes.required {nodes : List (String × δ)} {fields : List (String × Json)} {j : Json}
    {a : α} (name : String) (hnodes : Forall₂ (Named shows) nodes fields)
    (hj : fields.lookup name = some j)
    (hread : Decodes shows read j a) : Data.required nodes name read = some a := by
  obtain ⟨d, hd, hshown⟩ := Data.exists_lookup_of_named hnodes hj
  rw [Data.required_of_lookup hd, hread d hshown]

/-- A field that may be missing is read as well, for the printer writes all fields. -/
theorem Decodes.defaulted {nodes : List (String × δ)} {fields : List (String × Json)} {j : Json}
    {a : α} (name : String) (value : α) (hnodes : Forall₂ (Named shows) nodes fields)
    (hj : fields.lookup name = some j)
    (hread : Decodes shows read j a) : Data.defaulted nodes name value read = some a := by
  obtain ⟨d, hd, hshown⟩ := Data.exists_lookup_of_named hnodes hj
  rw [Data.defaulted_of_lookup hd, hread d hshown]

end Json
end Text
end CombatTrials
