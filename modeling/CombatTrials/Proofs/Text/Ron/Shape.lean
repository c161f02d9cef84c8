import CombatTrials.Proofs.Text.Ron.Spelling
import CombatTrials.Proofs.Text.Ron.Values

/-!
# The data that stand for typed data

A value of a type can be written in many ways. Its `Shape` says which data stand for it, and how
many levels each may open. Where the notation leaves a choice, the shape leaves it too: the fields
of a structure stand in any order, among fields that nobody declares, and one with its standard
value may be left out (`FieldsFill`); a structure may have its name in front; an optional value may
stand without its `Some` where the text asked for that.

A shape is built like the type: one way to build it for every way the format presents data, and for
each a lemma that a reader finds the value in all the data of the shape (`ReadAt`).
-/

namespace CombatTrials
namespace Text
namespace Ron

open List (Forall₂)

/-- What data stand for a value, by the levels that may be opened for them. -/
abbrev Shape : Type := Nat → Datum → Prop

/-- A field of a structure, and when it may be left out. -/
structure Slot where
  name : String
  shape : Shape
  mayBeOmitted : Prop

namespace Slot

/-- A field that is always written. -/
def needed (name : String) (shape : Shape) : Slot := ⟨name, shape, False⟩

/-- A field that may be left out where it has its standard value. -/
def omittable (name : String) (shape : Shape) (isStandard : Prop) : Slot :=
  ⟨name, shape, isStandard⟩

end Slot

/-- Fields with the contents of slots, in the order of the slots. Some are left out that may be. -/
inductive Written (room : Nat) : List Slot → List (String × Datum) → Prop
  | nil : Written room [] []
  | given {slot : Slot} {slots : List Slot} {d : Datum} {fields : List (String × Datum)}
      (hd : slot.shape room d) (h : Written room slots fields) :
      Written room (slot :: slots) ((slot.name, d) :: fields)
  | omitted {slot : Slot} {slots : List Slot} {fields : List (String × Datum)}
      (hslot : slot.mayBeOmitted) (h : Written room slots fields) :
      Written room (slot :: slots) fields

/-- Fields in any order that are those of the slots and others, with values by themselves, that have
none of their names. -/
def FieldsFill (room : Nat) (slots : List Slot) (fields : List (String × Datum)) : Prop :=
  ∃ written extras, fields.Perm (written ++ extras) ∧ Written room slots written ∧
    ∀ field ∈ extras, field.1 ∉ slots.map Slot.name ∧ field.2.IsValue room

/-- A pair of parentheses with the fields of slots. It opens two levels for them, but only one
without any. -/
inductive Body.Fills : Nat → List Slot → Body → Prop
  | empty {room : Nat} {slots : List Slot} (h : ∀ slot ∈ slots, slot.mayBeOmitted) :
      Body.Fills (room + 1) slots (.items [])
  | fields {room : Nat} {slots : List Slot} {fields : List (String × Datum)}
      (h : FieldsFill room slots fields) : Body.Fills (room + 2) slots (.fields fields)

namespace Shape

/-! ## Shapes

One for each way in which the format presents data. A shape is a relation, as it has to leave open
what the notation leaves open. -/

/-- The numerals of an integer. -/
def natural (n : Nat) : Shape := fun _ d => ∃ lexeme, d = .number lexeme ∧ IsNumeral n lexeme.toList

theorem natural_toString (n room : Nat) : natural n room (.number (toString n)) := by
  refine ⟨toString n, rfl, ?_⟩
  rw [show (toString n).toList = Nat.toDigits 10 n from Nat.toList_repr]
  exact isNumeral_toDigits n

/-- The literals of a real. Infinity and NaN are words if they have no sign. -/
def real (x : Float) : Shape := fun _ d =>
  (∃ lexeme, d = .number lexeme ∧ real? lexeme.toList = some x) ∨
    (d = .word ⟨"inf", false⟩ ∧ x = 1 / 0) ∨ (d = .word ⟨"NaN", false⟩ ∧ x = 0 / 0)

/-- A string. -/
def text (s : String) : Shape := fun _ d => d = .text s

/-- A boolean. -/
def boolean (b : Bool) : Shape := fun _ d => d = .word ⟨if b then "true" else "false", false⟩

/-- A list of values of the given shapes. -/
inductive list (shapes : List Shape) : Shape
  | intro {room : Nat} {items : List Datum} (hroom : bracketLevels items ≤ room)
      (h : Forall₂ (fun shape d => shape (room - 2) d) shapes items) :
      list shapes room (.list items)

/-- The word that a datum begins with. -/
def leadingWord? : Datum → Option Word
  | .word w => some w
  | .group name _ => name
  | _ => none

/-- An optional value of the given shape. Without its `Some` it must not begin with the letters of
that, nor be `None`. -/
inductive optional (implicitSome : Bool) : Option Shape → Shape
  | none {room : Nat} : optional implicitSome .none room (.word ⟨"None", false⟩)
  | some {shape : Shape} {room : Nat} {d : Datum} (h : shape room d) :
      optional implicitSome (.some shape) (room + 1) (.group (.some ⟨"Some", false⟩) (.items [d]))
  | bare {shape : Shape} {room : Nat} {d : Datum} (himplicit : implicitSome = true)
      (h : shape room d) (hjoined : ∀ isJoined value, d ≠ .bareSome isJoined value)
      (hword : ∀ w ∈ leadingWord? d, w.afterSome? = .none ∧ w ≠ ⟨"None", false⟩) :
      optional implicitSome (.some shape) (room + 1) d

/-- A structure of the given name and fields. -/
inductive record (typeName : String) (slots : List Slot) : Shape
  | unit {room : Nat} (h : Body.Fills room slots (.items [])) : record typeName slots room .unit
  | plain {room : Nat} {body : Body} (h : body.Fills room slots) :
      record typeName slots room (.group none body)
  | named {room : Nat} {body : Body} (isRaw : Bool) (h : body.Fills room slots) :
      record typeName slots room (.group (some ⟨typeName, isRaw⟩) body)

/-- A case without contents. -/
inductive plainCase (name : String) : Shape
  | intro {room : Nat} (isRaw : Bool) : plainCase name (room + 2) (.word ⟨name, isRaw⟩)

/-- A case with a single value. -/
inductive soleCase (name : String) (shape : Shape) : Shape
  | intro {room : Nat} {d : Datum} (isRaw : Bool) (h : shape room d) :
      soleCase name shape (room + 2) (.group (some ⟨name, isRaw⟩) (.items [d]))

/-- A case with fields. -/
inductive recordCase (name : String) (slots : List Slot) : Shape
  | intro {room : Nat} {body : Body} (isRaw : Bool) (h : body.Fills (room + 1) slots) :
      recordCase name slots (room + 2) (.group (some ⟨name, isRaw⟩) body)

end Shape

/-! ## Readers

For each shape the reader that goes with it. A reader is not told which of the data it was given,
and has to come to the same value from all of them. -/

variable {α : Type} {read : Node → Option α} {a : α} {room : Nat}

/-- All data of a shape are read alike where so many levels may be opened. -/
def ReadAt (room : Nat) (shape : Shape) (read : Node → Option α) (a : α) : Prop :=
  ∀ d, shape room d → read ⟨d, room⟩ = some a

namespace ReadAt

theorem natural (implicitSome : Bool) (n : Nat) :
    ReadAt room (.natural n) (format implicitSome).natural? n := by
  rintro _ ⟨lexeme, rfl, h⟩
  exact natural?_of_isNumeral h

theorem word32 (implicitSome : Bool) (w : UInt32) :
    ReadAt room (.natural w.toNat) (format implicitSome).word32? w := fun d hd =>
  Data.word32?_of_natural? (natural implicitSome w.toNat d hd)

theorem word64 (implicitSome : Bool) (w : UInt64) :
    ReadAt room (.natural w.toNat) (format implicitSome).word64? w := fun d hd =>
  Data.word64?_of_natural? (natural implicitSome w.toNat d hd)

theorem real (implicitSome : Bool) (x : Float) :
    ReadAt room (.real x) (format implicitSome).real? x := by
  rintro _ (⟨lexeme, rfl, h⟩ | ⟨rfl, rfl⟩ | ⟨rfl, rfl⟩)
  · exact h
  · rfl
  · rfl

theorem text (implicitSome : Bool) (s : String) :
    ReadAt room (.text s) (format implicitSome).text? s := by
  rintro _ rfl
  rfl

theorem boolean (implicitSome : Bool) (b : Bool) :
    ReadAt room (.boolean b) (format implicitSome).boolean? b := by
  rintro _ rfl
  cases b <;> rfl

/-- A list is read if its items are, two levels further down. -/
theorem listOf (implicitSome : Bool) {shapeOf : α → Shape} (as : List α)
    (h : ∀ a, ReadAt (room - 2) (shapeOf a) read a) :
    ReadAt room (.list (as.map shapeOf)) ((format implicitSome).listOf? read) as := by
  rintro _ ⟨hroom, hitems⟩
  next items =>
  -- an empty list opens one level only; where there is an item there is room for two
  have hnodes :
      items.mapM (Node.inside ⟨.list items, room⟩ 2) = some (items.map fun d => ⟨d, room - 2⟩) := by
    refine Data.mapM_eq_some ?_
    rw [List.forall₂_map_right_iff]
    refine List.forall₂_same.mpr fun d hd => if_pos ?_
    rw [bracketLevels, if_neg (by simpa using List.ne_nil_of_mem hd)] at hroom
    exact hroom
  have hlist : (format implicitSome).list? ⟨.list items, room⟩ =
      some (items.map fun d => ⟨d, room - 2⟩) := by
    show (if bracketLevels items ≤ room then _ else _) = _
    rw [if_pos hroom, hnodes]
  refine Data.listOf?_of_list? hlist ?_
  rw [List.forall₂_map_left_iff] at hitems ⊢
  exact hitems.flip.imp fun d a hd => h a d hd

/-- A datum that does not begin with the letters of `Some` is what it holds. -/
theorem optional?_of_bare {d : Datum} (hjoined : ∀ isJoined value, d ≠ .bareSome isJoined value)
    (hword : ∀ w ∈ Shape.leadingWord? d, w.afterSome? = none ∧ w ≠ ⟨"None", false⟩) :
    (format true).optional? ⟨d, room + 1⟩ = some (some ⟨d, room⟩) := by
  show Node.optional? true ⟨d, room + 1⟩ = _
  cases d with
  -- only a word by itself and the word in front of parentheses are looked at for `Some` and `None`
  | word w =>
    obtain ⟨hsome, hnone⟩ := hword w rfl
    unfold Node.optional?
    split
    next heq => exact absurd (Datum.word.inj heq) hnone
    next heq => nomatch heq
    next => simp [Datum.contents?, hsome, Node.inside]
  | group name body =>
    cases name with
    | none => rfl
    | some w =>
      obtain ⟨hsome, -⟩ := hword w rfl
      unfold Node.optional?
      split
      next heq => nomatch heq
      next heq =>
        obtain rfl := Option.some.inj (Datum.group.inj heq).1
        exact absurd hsome (by decide)
      next => simp [Datum.contents?, hsome, Node.inside]
  | bareSome isJoined value => exact absurd rfl (hjoined _ _)
  | _ => rfl

/-- An optional value is read, with its `Some` or, where the text asked for that, without. -/
theorem optionalOf (implicitSome : Bool) {shapeOf : α → Shape} (o : Option α)
    (h : ∀ a, ReadAt (room - 1) (shapeOf a) read a) :
    ReadAt room (.optional implicitSome (o.map shapeOf))
      ((format implicitSome).optionalOf? read) o := by
  intro d hd
  cases o with
  | none =>
    cases hd
    rfl
  | some a =>
    rcases hd with _ | ⟨hd⟩ | ⟨rfl, hd, hjoined, hword⟩
    · exact Data.optionalOf?_of_present rfl (h a _ hd)
    · exact Data.optionalOf?_of_present (optional?_of_bare hjoined hword) (h a _ hd)

theorem plainCase (implicitSome : Bool) {name : String} {d : Datum}
    (hd : Shape.plainCase name room d) :
    (format implicitSome).plainVariant? ⟨d, room⟩ = some name := by
  rcases hd with ⟨isRaw⟩
  rfl

/-- The contents of a case with a single value are read like the value. -/
theorem soleCase (implicitSome : Bool) {name : String} {shape : Shape} {d : Datum}
    (hd : Shape.soleCase name shape room d) :
    2 ≤ room ∧ ∃ contents, (format implicitSome).variant? ⟨d, room⟩ = some (name, some contents) ∧
      ∀ {α : Type} {read : Node → Option α} {a : α}, ReadAt (room - 2) shape read a →
        (format implicitSome).soleOf? read (some contents) = some a := by
  rcases hd with ⟨isRaw, hd⟩
  next room d =>
  exact ⟨Nat.le_add_left 2 room, ⟨.group none (.items [d]), room + 1⟩, rfl, fun hread => hread d hd⟩

end ReadAt

/-! ## Fields

A structure is read field by field, and each field is looked up by name among those that were
written. What has to be shown is that this finds the field of a slot, if it was written, and no
other. -/

/-- The fields that are written have the names of their slots, in that order. -/
theorem Written.sublist {slots : List Slot} {fields : List (String × Datum)}
    (h : Written room slots fields) : (fields.map Prod.fst).Sublist (slots.map Slot.name) := by
  induction h with
  | nil => exact .slnil
  | given _ _ ih => exact ih.cons_cons _
  | omitted _ _ ih => exact ih.cons _

/-- Every slot has a field with its contents or none at all. By induction on what is written: as no
two slots have one name, a field for the first slot is not one for a later slot. -/
theorem Written.given_or_omitted {slots : List Slot} {fields : List (String × Datum)}
    (h : Written room slots fields) (hnodup : (slots.map Slot.name).Nodup) {slot : Slot}
    (hslot : slot ∈ slots) :
    (∃ d, (slot.name, d) ∈ fields ∧ slot.shape room d) ∨
      (slot.name ∉ fields.map Prod.fst ∧ slot.mayBeOmitted) := by
  induction h with
  | nil => nomatch hslot
  | @given first slots d fields hd h ih =>
    obtain ⟨hfirst, hnodup⟩ := List.nodup_cons.mp hnodup
    rcases List.mem_cons.mp hslot with rfl | hslot
    · exact .inl ⟨d, List.mem_cons_self, hd⟩
    · -- found behind the first field, or missing there; and the first field has another name
      rcases ih hnodup hslot with ⟨d', hmem, hd'⟩ | ⟨hmissing, homitted⟩
      · exact .inl ⟨d', List.mem_cons_of_mem _ hmem, hd'⟩
      · refine .inr ⟨?_, homitted⟩
        rw [List.map_cons, List.mem_cons, not_or]
        refine ⟨fun heq => hfirst ?_, hmissing⟩
        rw [show first.name = slot.name from heq.symm]
        exact List.mem_map_of_mem hslot
  | @omitted first slots fields homitted h ih =>
    obtain ⟨hfirst, hnodup⟩ := List.nodup_cons.mp hnodup
    rcases List.mem_cons.mp hslot with rfl | hslot
    · exact .inr ⟨fun hmem => hfirst (h.sublist.subset hmem), homitted⟩
    · exact ih hnodup hslot

/-- What the fields that were read have for a slot. -/
inductive Found (room : Nat) (nodes : List (String × Node)) (slot : Slot) : Prop
  | given {d : Datum} (hnode : nodes.lookup slot.name = some ⟨d, room⟩) (hd : slot.shape room d)
  | omitted (hmissing : nodes.lookup slot.name = none) (hslot : slot.mayBeOmitted)

theorem Found.required {nodes : List (String × Node)} {name : String} {shape : Shape}
    (h : Found room nodes (.needed name shape)) (hread : ReadAt room shape read a) :
    Data.required nodes name read = some a := by
  rcases h with ⟨hnode, hd⟩ | ⟨-, ⟨⟩⟩
  exact (Data.required_of_lookup hnode read).trans (hread _ hd)

/-- A field that may be left out is read, or has its standard value. -/
theorem Found.defaulted {nodes : List (String × Node)} {name : String} {shape : Shape}
    {isStandard : Prop} {standard : α} (h : Found room nodes (.omittable name shape isStandard))
    (hread : ReadAt room shape read a) (hstandard : isStandard → a = standard) :
    Data.defaulted nodes name standard read = some a := by
  rcases h with ⟨hnode, hd⟩ | ⟨hmissing, homitted⟩
  · exact (Data.defaulted_of_lookup hnode standard read).trans (hread _ hd)
  · rw [hstandard homitted]
    exact Data.defaulted_of_missing hmissing standard read

section

variable {slots : List Slot} {fields : List (String × Datum)}

/-- No declared field stands twice among fields that fill slots. -/
theorem FieldsFill.declaredOnce (h : FieldsFill room slots fields)
    (hnodup : (slots.map Slot.name).Nodup) :
    Data.declaredOnce (slots.map Slot.name) fields = true := by
  obtain ⟨written, extras, hperm, hwritten, hextras⟩ := h
  rw [Data.declaredOnce_iff, ((hperm.map Prod.fst).filter _).nodup_iff, List.map_append,
    List.filter_append]
  -- the fields that nobody declares do not count
  have hnone : (extras.map Prod.fst).filter (· ∈ slots.map Slot.name) = [] := by
    rw [List.filter_eq_nil_iff]
    intro name hname
    obtain ⟨field, hfield, rfl⟩ := List.mem_map.mp hname
    simpa using (hextras field hfield).1
  rw [hnone, List.append_nil]
  exact (hnodup.sublist hwritten.sublist).filter _

theorem FieldsFill.othersArePassable (h : FieldsFill room slots fields) (implicitSome : Bool) :
    fieldsArePassable implicitSome room
      (fields.filter fun (name, _) => !(slots.map Slot.name).contains name) = true := by
  obtain ⟨written, extras, hperm, hwritten, hextras⟩ := h
  rw [fieldsArePassable_iff]
  intro field hfield
  obtain ⟨hfield, hother⟩ := List.mem_filter.mp hfield
  rcases List.mem_append.mp (hperm.subset hfield) with hgiven | hextra
  · -- a field of a slot is declared, so it is none of the others
    have hdeclared := hwritten.sublist.subset (List.mem_map_of_mem hgiven)
    have hother : (!(slots.map Slot.name).contains field.1) = true := hother
    rw [List.contains_iff_mem.mpr hdeclared] at hother
    exact absurd hother (by decide)
  · exact isPassable_of_isValue (hextras field hextra).2 implicitSome

theorem lookup_map_inside {name : String} :
    (fields.map fun field => (field.1, (⟨field.2, room⟩ : Node))).lookup name =
      (fields.lookup name).map (⟨·, room⟩) := by
  induction fields with
  | nil => rfl
  | cons field rest ih =>
    obtain ⟨key, d⟩ := field
    rw [List.map_cons, List.lookup_cons, List.lookup_cons, ih]
    cases name == key <;> rfl

/-- A slot is found if its field is there, wherever that is, and else it may be omitted. -/
theorem FieldsFill.found (h : FieldsFill room slots fields) (hnodup : (slots.map Slot.name).Nodup)
    {slot : Slot} (hslot : slot ∈ slots) :
    Found room (fields.map fun field => (field.1, ⟨field.2, room⟩)) slot := by
  have honce := h.declaredOnce hnodup
  obtain ⟨written, extras, hperm, hwritten, hextras⟩ := h
  rcases hwritten.given_or_omitted hnodup hslot with ⟨d, hmem, hd⟩ | ⟨hmissing, homitted⟩
  · have hfield := hperm.symm.subset (List.mem_append_left extras hmem)
    have hlookup := Data.lookup_of_mem honce (List.mem_map_of_mem hslot) hfield
    exact .given (by rw [lookup_map_inside, hlookup, Option.map_some]) hd
  · -- a field of this name would be one of a slot or one that nobody declares, and it is neither
    have hlookup : fields.lookup slot.name = none := by
      refine Data.lookup_of_not_mem fun hmem => ?_
      rw [(hperm.map Prod.fst).mem_iff, List.map_append, List.mem_append] at hmem
      rcases hmem with hmem | hmem
      · exact hmissing hmem
      · obtain ⟨field, hfield, hname⟩ := List.mem_map.mp hmem
        exact (hextras field hfield).1 (hname ▸ List.mem_map_of_mem hslot)
    exact .omitted (by rw [lookup_map_inside, hlookup, Option.map_none]) homitted

end

/-- The fields of slots are found in parentheses that they fill. -/
theorem Body.Fills.exists_fields {slots : List Slot} {body : Body} {n : Node}
    (h : body.Fills n.room slots) (hnodup : (slots.map Slot.name).Nodup) (implicitSome : Bool) :
    ∃ nodes, n.fields? implicitSome (slots.map Slot.name) body = some nodes ∧
      slots.Forall (Found (n.room - 2) nodes) := by
  obtain ⟨datum, room⟩ := n
  rcases h with ⟨homitted⟩ | ⟨hfields⟩
  · -- nothing is written, so every slot is one that may be left out
    refine ⟨[], rfl, List.forall_iff_forall_mem.mpr fun slot hslot => ?_⟩
    exact .omitted rfl (homitted slot hslot)
  · next room fields =>
    refine ⟨fields.map fun field => (field.1, ⟨field.2, room⟩), ?_, ?_⟩
    -- the fields that were read are those written, each with the levels that are left
    case refine_2 =>
      exact List.forall_iff_forall_mem.mpr fun slot hslot => hfields.found hnodup hslot
    show (if (Data.declaredOnce (slots.map Slot.name) fields &&
      fieldsArePassable implicitSome room
        (fields.filter fun (name, _) => !(slots.map Slot.name).contains name)) = true
      then _ else none) = _
    rw [hfields.declaredOnce hnodup, hfields.othersArePassable implicitSome,
      if_pos (Bool.and_self true)]
    refine Data.mapM_eq_some ?_
    rw [List.forall₂_map_right_iff]
    exact List.forall₂_same.mpr fun _ _ => rfl

namespace ReadAt

variable {slots : List Slot} {d : Datum}

theorem record (implicitSome : Bool) (least : Nat) {typeName : String}
    (hd : Shape.record typeName slots room d) (declared : List String)
    (hdeclared : slots.map Slot.name = declared) (hnodup : declared.Nodup) :
    ∃ nodes, (format implicitSome).fields? typeName declared least ⟨d, room⟩ = some nodes ∧
      slots.Forall (Found (room - 2) nodes) := by
  subst hdeclared
  rcases hd with ⟨hbody⟩ | ⟨hbody⟩ | ⟨isRaw, hbody⟩
  · exact Body.Fills.exists_fields (n := ⟨.unit, room⟩) hbody hnodup implicitSome
  · next body =>
    exact Body.Fills.exists_fields (n := ⟨.group none body, room⟩) hbody hnodup implicitSome
  · next body =>
    obtain ⟨nodes, hnodes, hfound⟩ :=
      Body.Fills.exists_fields (n := ⟨.group (some ⟨typeName, isRaw⟩) body, room⟩) hbody hnodup
        implicitSome
    exact ⟨nodes, (if_pos rfl).trans hnodes, hfound⟩

/-- The fields of a case are found. -/
theorem recordCase (implicitSome : Bool) {name : String} (hd : Shape.recordCase name slots room d)
    (declared : List String) (hdeclared : slots.map Slot.name = declared)
    (hnodup : declared.Nodup) :
    2 ≤ room ∧ ∃ contents nodes,
      (format implicitSome).variant? ⟨d, room⟩ = some (name, some contents) ∧
      (format implicitSome).members? declared (some contents) = some nodes ∧
      slots.Forall (Found (room - 3) nodes) := by
  subst hdeclared
  rcases hd with ⟨isRaw, hbody⟩
  next room body =>
  obtain ⟨nodes, hnodes, hfound⟩ :=
    Body.Fills.exists_fields (n := ⟨.group none body, room + 1⟩) hbody hnodup implicitSome
  exact ⟨Nat.le_add_left 2 room, ⟨.group none body, room + 1⟩, nodes, rfl, hnodes, hfound⟩

end ReadAt

/-! ## Texts

A text is a document with the tokens of some datum of the shape, and the document is what the reader
makes of them. -/

/-- A text in which data of the shape are written, with levels enough for them. -/
def IsWritten (shape : Bool → Shape) (text : String) : Prop :=
  ∃ (document : Document) (ts : List Token), tokenize text = some ts ∧ document.Spelled ts ∧
    shape document.implicitSome levelLimit document.value

/-- A value is read from every text it is written in, if it is read from all data of its shape. -/
theorem read?_of_isWritten {shape : Bool → Shape} {text : String}
    {read : Data.Format Node → Node → Option α} (h : IsWritten shape text)
    (hread : ∀ implicitSome,
      ReadAt levelLimit (shape implicitSome) (read (format implicitSome)) a) :
    Ron.read? read text = some a := by
  obtain ⟨document, ts, htokens, hspelled, hshape⟩ := h
  have hdocument : Document.read? text = some document := by
    rw [Document.read?, htokens]
    exact Document.ofTokens?_of_spelled hspelled
  rw [Ron.read?, hdocument]
  exact hread document.implicitSome _ hshape

end Ron
end Text
end CombatTrials
