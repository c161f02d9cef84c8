import CombatTrials.Proofs.Data.Fields
import CombatTrials.Text.Ron.Format

/-!
# Values by themselves

What stands in a field that nobody declares is looked at only to pass over it, and has to be a value
by itself. The rules are given here one by one (`Datum.IsValue`), those of numbers first: which
letters are a numeral of which integer (`IsNumeral`), and that a number is such an integer of
sixty-four bits or a real. A value by itself is passed over (`isPassable_of_isValue`).
-/

namespace CombatTrials
namespace Text
namespace Ron

open List (Forall₂)

/-! ## Numerals

Underscores may stand among the digits and mean nothing. So the digits of a numeral are those that
are left without them, and the value is that of the digits. -/

/-- Letters that are the digits of an integer in a base. Underscores may stand among the digits, but
not in front. -/
def AreDigits (base n : Nat) (cs : List Char) : Prop :=
  cs ≠ [] ∧ cs.head? ≠ some '_' ∧ ∃ digits,
    Forall₂ (fun c d => Json.hexDigit? c = some d ∧ d < base) (cs.filter (· ≠ '_')) digits ∧
    n = digits.foldl (fun n d => base * n + d) 0

/-- Letters that are an integer, in one of four bases. -/
inductive IsNumeral (n : Nat) : List Char → Prop
  | decimal {cs : List Char} (h : AreDigits 10 n cs) : IsNumeral n cs
  | hexadecimal {cs : List Char} (h : AreDigits 16 n cs) : IsNumeral n ('0' :: 'x' :: cs)
  | binary {cs : List Char} (h : AreDigits 2 n cs) : IsNumeral n ('0' :: 'b' :: cs)
  | octal {cs : List Char} (h : AreDigits 8 n cs) : IsNumeral n ('0' :: 'o' :: cs)

/-- The value of letters is that of their digits, underscores passed over. By induction on the
letters, with the value so far left open, since every digit adds to it. -/
theorem digitsValue_of_digits {base : Nat} {cs : List Char} {digits : List Nat}
    (h : Forall₂ (fun c d => Json.hexDigit? c = some d ∧ d < base) (cs.filter (· ≠ '_')) digits)
    (n : Nat) : digitsValue base n cs = some (digits.foldl (fun n d => base * n + d) n) := by
  induction cs generalizing n digits with
  | nil =>
    cases h
    rfl
  | cons c cs ih =>
    rw [digitsValue]
    split
    · -- an underscore is left out on both sides
      next hc =>
      subst hc
      exact ih (by simpa using h) n
    · next hc =>
      rw [List.filter_cons_of_pos (by simpa using hc)] at h
      rcases h with _ | ⟨⟨hdigit, hlt⟩, hrest⟩
      rw [hdigit]
      dsimp only
      rw [if_pos hlt]
      exact ih hrest _

theorem digits?_of_areDigits {base n : Nat} {cs : List Char} (h : AreDigits base n cs) :
    digits? base cs = some n := by
  obtain ⟨hne, hfirst, digits, hdigits, rfl⟩ := h
  cases cs with
  | nil => exact absurd rfl hne
  | cons c cs =>
    rw [digits?, if_neg (by simpa using hfirst)]
    exact digitsValue_of_digits hdigits 0

/-- No letter of a base stands among decimal digits. -/
theorem AreDigits.second_ne {n : Nat} {c d : Char} {cs : List Char}
    (h : AreDigits 10 n (c :: d :: cs)) : d ≠ 'x' ∧ d ≠ 'b' ∧ d ≠ 'o' := by
  obtain ⟨-, -, digits, hdigits, -⟩ := h
  -- a character behind the first is a digit, worth less than ten, or an underscore
  have hvalue : d ≠ '_' → ∃ value < 10, Json.hexDigit? d = some value := by
    intro hd
    have hmem : d ∈ (c :: d :: cs).filter (· ≠ '_') := by simp [hd]
    obtain ⟨value, -, hdigit, hlt⟩ := Data.exists_of_mem hdigits hmem
    exact ⟨value, hlt, hdigit⟩
  refine ⟨?_, ?_, ?_⟩
  · rintro rfl
    obtain ⟨value, -, hvalue⟩ := hvalue (by decide)
    exact absurd hvalue (by simp [show Json.hexDigit? 'x' = none by decide])
  · rintro rfl
    obtain ⟨value, hlt, hvalue⟩ := hvalue (by decide)
    rw [show Json.hexDigit? 'b' = some 11 by decide, Option.some.injEq] at hvalue
    omega
  · rintro rfl
    obtain ⟨value, -, hvalue⟩ := hvalue (by decide)
    exact absurd hvalue (by simp [show Json.hexDigit? 'o' = none by decide])

/-- A numeral is read as the integer it is a numeral of, in all four bases. -/
theorem natural?_of_isNumeral {n : Nat} {cs : List Char} (h : IsNumeral n cs) :
    natural? cs = some n := by
  cases h with
  | hexadecimal h => exact digits?_of_areDigits h
  | binary h => exact digits?_of_areDigits h
  | octal h => exact digits?_of_areDigits h
  | decimal h =>
    -- no letter of a base stands second, so the last branch is the one taken
    rw [natural?]
    · exact digits?_of_areDigits h
    · rintro rest rfl
      exact h.second_ne.1 rfl
    · rintro rest rfl
      exact h.second_ne.2.1 rfl
    · rintro rest rfl
      exact h.second_ne.2.2 rfl

/-- A decimal digit is one of base sixteen too, and worth less than ten. -/
theorem hexDigit?_of_isDigit {c : Char} (h : c.isDigit = true) :
    Json.hexDigit? c = some (c.toNat - '0'.toNat) ∧ c.toNat - '0'.toNat < 10 := by
  have hbounds : '0' ≤ c ∧ c ≤ '9' := by
    simpa [Char.isDigit, Char.le_def, UInt32.le_iff_toNat_le] using h
  have hnine : c.toNat ≤ 57 := hbounds.2
  refine ⟨?_, ?_⟩
  · unfold Json.hexDigit?
    rw [if_pos (by simpa using hbounds)]
  · show c.toNat - 48 < 10
    omega

/-- The decimal digits of an integer are a numeral of it. -/
theorem isNumeral_toDigits (n : Nat) : IsNumeral n (Nat.toDigits 10 n) := by
  have hdigit : ∀ c ∈ Nat.toDigits 10 n, c.isDigit = true := fun c hc =>
    Nat.isDigit_of_mem_toDigits (by decide) (by decide) hc
  have hplain : ∀ c ∈ Nat.toDigits 10 n, c ≠ '_' := by
    rintro c hc rfl
    exact absurd (hdigit _ hc) (by decide)
  -- the digits of an integer are not none, do not begin with an underscore and have its value
  refine .decimal ⟨Nat.toDigits_ne_nil, fun hfirst => hplain _ (List.mem_of_mem_head? hfirst) rfl,
    (Nat.toDigits 10 n).map fun c => c.toNat - '0'.toNat, ?_, ?_⟩
  · rw [List.filter_eq_self.mpr fun c hc => by simpa using hplain c hc, List.forall₂_map_right_iff]
    exact List.forall₂_same.mpr fun c hc => hexDigit?_of_isDigit (hdigit c hc)
  · rw [List.foldl_map]
    exact Nat.ofDigitChars_ten_toDigits.symm

/-- Letters that are a number, where nothing says of which kind: an integer of sixty-four bits,
signed if it has a sign, or a real. -/
inductive IsNumberText : List Char → Prop
  | unsigned {n : Nat} {cs : List Char} (h : IsNumeral n cs) (hn : n < UInt64.size) :
      IsNumberText cs
  | negative {n : Nat} {cs : List Char} (h : IsNumeral n cs) (hn : n ≤ UInt64.size / 2) :
      IsNumberText ('-' :: cs)
  | positive {n : Nat} {cs : List Char} (h : IsNumeral n cs) (hn : n < UInt64.size / 2) :
      IsNumberText ('+' :: cs)
  | real {x : Float} {cs : List Char} (h : real? cs = some x) : IsNumberText cs

/-- A numeral without a sign has none. -/
theorem IsNumeral.head_isSome {n : Nat} {c : Char} {cs : List Char} (h : IsNumeral n (c :: cs)) :
    (Json.hexDigit? c).isSome = true := by
  cases h with
  | decimal h =>
    obtain ⟨-, hfirst, digits, hdigits, -⟩ := h
    rw [List.filter_cons_of_pos (by simpa using hfirst)] at hdigits
    rcases hdigits with _ | ⟨⟨hdigit, -⟩, -⟩
    rw [hdigit, Option.isSome_some]
  | _ => rfl

theorem isNumber_of_text {cs : List Char} (h : IsNumberText cs) : isNumber cs = true := by
  rw [isNumber, Bool.or_eq_true]
  cases h with
  | real h => exact .inr (by rw [h, Option.isSome_some])
  | negative h hn => exact .inl (by simpa [isInteger, natural?_of_isNumeral h] using hn)
  | positive h hn => exact .inl (by simpa [isInteger, natural?_of_isNumeral h] using hn)
  | unsigned h hn =>
    left
    rw [isInteger]
    · simpa [natural?_of_isNumeral h] using hn
    · -- a numeral begins with a digit, so neither sign is read off it
      rintro rest rfl
      exact absurd h.head_isSome (by decide)
    · rintro rest rfl
      exact absurd h.head_isSome (by decide)

/-! ## Values

A field that nobody declares is skipped only if it is a value by itself. How deep it may go is
counted as for any other field. -/

/-- A datum that is a value by itself, for which so many levels may be opened. -/
inductive Datum.IsValue : Nat → Datum → Prop
  | word {room : Nat} {w : Word} (hw : w.isSome = false) : IsValue room (.word w)
  | number {room : Nat} {lexeme : String} (h : IsNumberText lexeme.toList) :
      IsValue room (.number lexeme)
  | text {room : Nat} (s : String) : IsValue room (.text s)
  | char {room : Nat} (c : Char) : IsValue room (.char c)
  | unit {room : Nat} : IsValue room .unit
  | list {room : Nat} {items : List Datum} (hroom : bracketLevels items ≤ room)
      (h : ∀ d ∈ items, IsValue (room - 2) d) : IsValue room (.list items)
  | map {room : Nat} {entries : List (Datum × Datum)} (hroom : bracketLevels entries ≤ room)
      (hkeys : ∀ entry ∈ entries, IsValue (room - 2) entry.1)
      (h : ∀ entry ∈ entries, IsValue (room - 2) entry.2) : IsValue room (.map entries)
  | items {room : Nat} {name : Option Word} {items : List Datum}
      (hname : ∀ w ∈ name, w.isSome = false) (hroom : bracketLevels items ≤ room)
      (h : ∀ d ∈ items, IsValue (room - 2) d) : IsValue room (.group name (.items items))
  | fields {room : Nat} {name : Option Word} {fields : List (String × Datum)}
      (hname : ∀ w ∈ name, w.isSome = false) (hroom : bracketLevels fields ≤ room)
      (h : ∀ field ∈ fields, IsValue (room - 2) field.2) :
      IsValue room (.group name (.fields fields))
  | present {room : Nat} {d : Datum} (hroom : 1 ≤ room) (h : IsValue (room - 1) d) :
    IsValue room (.group (some ⟨"Some", false⟩) (.items [d]))

-- lists of data are passed over by functions of their own; each says something of all its items

theorem arePassable_iff {implicitSome : Bool} {room : Nat} {items : List Datum} :
    arePassable implicitSome room items = true ↔
      ∀ d ∈ items, d.isPassable implicitSome room = true := by
  induction items with
  | nil => simp [arePassable]
  | cons d rest ih => rw [arePassable, Bool.and_eq_true, ih, List.forall_mem_cons]

theorem fieldsArePassable_iff {implicitSome : Bool} {room : Nat} {fields : List (String × Datum)} :
    fieldsArePassable implicitSome room fields = true ↔
      ∀ field ∈ fields, field.2.isPassable implicitSome room = true := by
  induction fields with
  | nil => simp [fieldsArePassable]
  | cons field rest ih => rw [fieldsArePassable, Bool.and_eq_true, ih, List.forall_mem_cons]

theorem entriesArePassable_iff {implicitSome : Bool} {room : Nat} {entries : List (Datum × Datum)} :
    entriesArePassable implicitSome room entries = true ↔ ∀ entry ∈ entries,
      entry.1.isPassable implicitSome room = true ∧
        entry.2.isPassable implicitSome room = true := by
  induction entries with
  | nil => simp [entriesArePassable]
  | cons entry rest ih =>
    rw [entriesArePassable, Bool.and_eq_true, Bool.and_eq_true, ih, List.forall_mem_cons]

/-- A value by itself is passed over, whatever the text allows of optional values. By induction on
the rules: each is a branch of the check, which counts the levels in the same way. -/
theorem isPassable_of_isValue {room : Nat} {d : Datum} (h : d.IsValue room) (implicitSome : Bool) :
    d.isPassable implicitSome room = true := by
  induction h with
  | word hw => simp [Datum.isPassable, hw]
  | number h => exact isNumber_of_text h
  | text s => rfl
  | char c => rfl
  | unit => rfl
  | list hroom _ ih => simp [Datum.isPassable, hroom, arePassable_iff.mpr ih]
  | map hroom _ _ ihkeys ih =>
    simp [Datum.isPassable, hroom, entriesArePassable_iff.mpr fun entry he =>
      ⟨ihkeys entry he, ih entry he⟩]
  | items hname hroom _ ih =>
    -- a name that does not say `Some` is passed over like none
    rw [Datum.isPassable]
    · simp [hroom, arePassable_iff.mpr ih]
    · rintro d rfl
      exact absurd (hname _ rfl) (by decide)
    · rintro rfl
      exact absurd (hname _ rfl) (by decide)
  | fields hname hroom _ ih =>
    rw [Datum.isPassable]
    · simp [hroom, fieldsArePassable_iff.mpr ih]
    · rintro rfl
      exact absurd (hname _ rfl) (by decide)
  | present hroom _ ih => simp [Datum.isPassable, hroom, ih]

end Ron
end Text
end CombatTrials
