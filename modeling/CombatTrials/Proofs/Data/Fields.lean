import Mathlib.Data.List.Forall2
import CombatTrials.Data.Format

/-!
# Fields and items that were found

What a reader of typed data does once a node has shown its items or its fields depends on no format:
items are read one after the other, a field is looked up by its name, and an integer is asked
whether it fits. The lemmas here say what comes of each, so that whatever is known of a node
(`Named`: that its fields are those of something else, one by one) is known of what is read from it.
-/

namespace CombatTrials
namespace Data

variable {δ ε α : Type}

/-- Reading items one after the other gives what each of them gives on its own. -/
theorem mapM_eq_some {read : δ → Option α} {ds : List δ} {as : List α}
    (h : List.Forall₂ (fun d a => read d = some a) ds as) : ds.mapM read = some as := by
  induction h with
  | nil => rfl
  | cons hd _ ih => simp [List.mapM_cons, hd, ih]

theorem exists_of_mem {related : δ → ε → Prop} {ds : List δ} {es : List ε} {d : δ}
    (h : List.Forall₂ related ds es) (hd : d ∈ ds) : ∃ e ∈ es, related d e := by
  induction h with
  | nil => nomatch hd
  | cons hfirst _ ih =>
    rcases List.mem_cons.mp hd with rfl | hrest
    · exact ⟨_, List.mem_cons_self, hfirst⟩
    · obtain ⟨e, he, hrelated⟩ := ih hrest
      exact ⟨e, List.mem_cons_of_mem _ he, hrelated⟩

/-! ## Values and items

What a reader makes of a node that has answered. The answers come from the format, and the formats
are looked at elsewhere. -/

section

variable {f : Format δ} {read : δ → Option α}

/-- A number that came from a word of thirty-two bits is not too large for one. -/
theorem word32?_of_natural? {d : δ} {w : UInt32} (h : f.natural? d = some w.toNat) :
    f.word32? d = some w := by
  unfold Format.word32?
  simp only [h, Option.bind_eq_bind, Option.bind_some, if_pos w.toNat_lt, UInt32.ofNat_toNat]

theorem word64?_of_natural? {d : δ} {w : UInt64} (h : f.natural? d = some w.toNat) :
    f.word64? d = some w := by
  unfold Format.word64?
  simp only [h, Option.bind_eq_bind, Option.bind_some, if_pos w.toNat_lt, UInt64.ofNat_toNat]

theorem listOf?_of_list? {d : δ} {ds : List δ} {as : List α} (h : f.list? d = some ds)
    (hread : List.Forall₂ (fun d a => read d = some a) ds as) : f.listOf? read d = some as := by
  unfold Format.listOf?
  simp only [h, Option.bind_eq_bind, Option.bind_some, mapM_eq_some hread]

theorem optionalOf?_of_absent {d : δ} (h : f.optional? d = some none) :
    f.optionalOf? read d = some none := by
  unfold Format.optionalOf?
  simp only [h, Option.bind_eq_bind, Option.bind_some, Option.pure_def]

theorem optionalOf?_of_present {d contents : δ} {a : α} (h : f.optional? d = some (some contents))
    (hread : read contents = some a) : f.optionalOf? read d = some (some a) := by
  unfold Format.optionalOf?
  simp only [h, hread, Option.bind_eq_bind, Option.bind_some, Option.pure_def]

end

/-! ## Looking up

Fields are looked up in the order in which they were shown. With names that are all different this
does not matter, and otherwise the first of a name is found. -/

variable {fields : List (String × δ)} {name : String} {d : δ}

theorem required_of_lookup (h : fields.lookup name = some d) (read : δ → Option α) :
    required fields name read = read d := by
  rw [required, h]

theorem defaulted_of_lookup (h : fields.lookup name = some d) (value : α) (read : δ → Option α) :
    defaulted fields name value read = read d := by
  rw [defaulted, h]

theorem defaulted_of_missing (h : fields.lookup name = none) (value : α) (read : δ → Option α) :
    defaulted fields name value read = some value := by
  rw [defaulted, h]

/-- Two fields of one name whose contents are related. -/
def Named (related : δ → ε → Prop) (field : String × δ) (other : String × ε) : Prop :=
  field.1 = other.1 ∧ related field.2 other.2

theorem names_of_named {related : δ → ε → Prop} {others : List (String × ε)}
    (h : List.Forall₂ (Named related) fields others) :
    fields.map Prod.fst = others.map Prod.fst := by
  induction h with
  | nil => rfl
  | cons hfirst _ ih => rw [List.map_cons, List.map_cons, ih, hfirst.1]

theorem named_zip {related : δ → ε → Prop} {ds : List δ} {es : List ε} (names : List String)
    (h : List.Forall₂ related ds es) :
    List.Forall₂ (Named related) (names.zip ds) (names.zip es) := by
  induction h generalizing names with
  | nil => cases names <;> exact .nil
  | cons hfirst _ ih =>
    cases names with
    | nil => exact .nil
    | cons name names => exact .cons ⟨rfl, hfirst⟩ (ih names)

/-- Lists of fields with the same names in the same order are looked up alike: whatever one of them
finds, the other has its counterpart at that place. -/
theorem exists_lookup_of_named {related : δ → ε → Prop} {others : List (String × ε)} {e : ε}
    (h : List.Forall₂ (Named related) fields others) (he : others.lookup name = some e) :
    ∃ d, fields.lookup name = some d ∧ related d e := by
  induction h with
  | nil => exact absurd he (by simp)
  | @cons field other _ _ hfirst _ ih =>
    obtain ⟨key, d⟩ := field
    obtain ⟨key', e'⟩ := other
    obtain ⟨rfl, hd⟩ : key = key' ∧ related d e' := hfirst
    rw [List.lookup_cons] at he ⊢
    -- the names are equal, so both look further or neither does
    cases hkey : name == key with
    | true =>
      rw [hkey] at he
      obtain rfl := Option.some.inj he
      exact ⟨d, rfl, hd⟩
    | false =>
      rw [hkey] at he
      exact ih he

/-! ## Repetitions

A repeated field is a mistake only if its name is declared. What else stands among the fields may be
repeated at will. -/

/-- No declared field occurs twice just when the names of declared fields are all different. -/
theorem declaredOnce_iff {declared : List String} :
    declaredOnce declared fields = true ↔ ((fields.map Prod.fst).filter (· ∈ declared)).Nodup := by
  induction fields with
  | nil => simp [declaredOnce]
  | cons field rest ih =>
    obtain ⟨name, d⟩ := field
    have hrepeated : (rest.any fun field => field.1 == name) = true ↔ name ∈ rest.map Prod.fst := by
      rw [List.any_eq_true, List.mem_map]
      exact exists_congr fun field => and_congr_right fun _ => beq_iff_eq
    rw [declaredOnce, Bool.and_eq_true, ih, Bool.not_eq_true', Bool.and_eq_false_iff,
      ← Bool.not_eq_true _, ← Bool.not_eq_true _, hrepeated, List.map_cons]
    -- a repetition of an undeclared name is no repetition
    by_cases hname : name ∈ declared
    · simp [hname]
    · simp [hname]

theorem declaredOnce_of_nodup (declared : List String) (h : (fields.map Prod.fst).Nodup) :
    declaredOnce declared fields = true :=
  declaredOnce_iff.mpr (h.filter _)

/-- A declared field that does not occur twice is the one that its name finds. -/
theorem lookup_of_mem {declared : List String} (honce : declaredOnce declared fields = true)
    (hname : name ∈ declared) (hd : (name, d) ∈ fields) : fields.lookup name = some d := by
  induction fields with
  | nil => nomatch hd
  | cons field rest ih =>
    obtain ⟨key, e⟩ := field
    rw [declaredOnce, Bool.and_eq_true, Bool.not_eq_true', Bool.and_eq_false_iff] at honce
    obtain ⟨hrepeated, honce⟩ := honce
    rcases List.mem_cons.mp hd with hfirst | hrest
    · obtain ⟨rfl, rfl⟩ := Prod.mk.inj hfirst
      exact List.lookup_cons_self
    · -- an earlier field of that name would make the declared one occur twice
      have hne : (name == key) = false := by
        rw [beq_eq_false_iff_ne]
        rintro rfl
        rcases hrepeated with hundeclared | hunrepeated
        · rw [List.contains_iff_mem.mpr hname] at hundeclared
          exact absurd hundeclared (by decide)
        · exact absurd hunrepeated
            (Bool.not_eq_false _ ▸ List.any_eq_true.mpr ⟨_, hrest, beq_self_eq_true _⟩)
      rw [List.lookup_cons, hne]
      exact ih honce hrest

theorem lookup_of_not_mem (h : name ∉ fields.map Prod.fst) : fields.lookup name = none := by
  rw [List.lookup_eq_none_iff]
  intro field hfield
  rw [bne_iff_ne]
  rintro rfl
  exact h (List.mem_map_of_mem hfield)

end Data
end CombatTrials
