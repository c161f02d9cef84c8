import CombatTrials.Text.Json.Printer
import CombatTrials.Text.Json.Reader

/-!
# Reading the tokens that were written

What the printer writes of a string, a number or a word is cut off again as one token with that
value (`Cuts.scalar`). A string ends with its quote, whatever its characters are: quotes,
backslashes and control characters are escaped, and all others stand for themselves. A number and a
word end with the first character that belongs to none, which has to follow them (`Ends`). After a
value the printer writes a comma, a bracket, a brace or a line end, and those do.

`Cuts` says it of a whole text: the characters are cut into the tokens, whatever fuel is left beyond
one unit for each character.
-/

namespace CombatTrials
namespace Text
namespace Json

/-! ## Strings

A string is read with the characters so far in hand, which are missing once half of a surrogate pair
has turned up alone. The only units that the printer writes are those of control characters. -/

/-- The escape of a control character is the unit of its code. -/
theorem hexUnit?_hexDigit :
    ∀ n < 0x20, hexUnit? '0' '0' (hexDigit (n / 16)) (hexDigit n) = some n := by
  decide

theorem stringBody_plain {c : Char} (hquote : c ≠ '"') (hbackslash : c ≠ '\\')
    (hprinted : ¬ c.toNat < 0x20) (done : Option (List Char)) (rest : List Char) :
    stringBody done (c :: rest) = stringBody (addChar (some c) done) rest := by
  rw [stringBody, if_neg hprinted]
  · exact hquote
  · rintro _ _ _ _ _ rfl
    exact absurd rfl hbackslash
  · rintro _ _ rfl
    exact absurd rfl hbackslash

/-- The escape of a control character adds it: its code is no half of a surrogate pair. -/
theorem stringBody_control {c : Char} (hcontrol : c.toNat < 0x20) (done : Option (List Char))
    (rest : List Char) :
    stringBody done
      ('\\' :: 'u' :: '0' :: '0' :: hexDigit (c.toNat / 16) :: hexDigit c.toNat :: rest) =
      stringBody (addChar (some c) done) rest := by
  have hunit := hexUnit?_hexDigit c.toNat hcontrol
  have hplain : ¬ (0xD800 ≤ c.toNat && c.toNat ≤ 0xDFFF) = true := by
    simp only [Bool.and_eq_true, decide_eq_true_eq]
    omega
  rw [stringBody, hunit]
  dsimp only
  rw [if_neg hplain, Char.ofNat_toNat]

theorem stringBody_escapeChar (c : Char) (done rest : List Char) :
    stringBody (some done) (escapeChar c ++ rest) = stringBody (some (c :: done)) rest := by
  unfold escapeChar
  repeat' split
  case isFalse.isFalse.isFalse.isFalse.isFalse.isFalse.isFalse.isTrue hcontrol =>
    exact stringBody_control hcontrol _ _
  case isFalse.isFalse.isFalse.isFalse.isFalse.isFalse.isFalse.isFalse =>
    exact stringBody_plain (by assumption) (by assumption) (by assumption) _ _
  -- the others have a letter
  all_goals
    subst c
    rfl

/-- What is written of a string is read up to its quote. By induction on the characters, with those
already read left open. -/
theorem stringBody_quoted (cs done rest : List Char) :
    stringBody (some done) (cs.flatMap escapeChar ++ '"' :: rest) =
      some (some (cs.reverse ++ done), rest) := by
  induction cs generalizing done with
  | nil => rfl
  | cons c cs ih =>
    rw [List.flatMap_cons, List.append_assoc, stringBody_escapeChar, ih, List.reverse_cons,
      List.append_assoc]
    rfl

/-! ## Numbers

A number is read in one go and then taken apart: sign, digits, perhaps an exponent. Each part has to
end where the next one begins, and the printer has to have written the digits without a zero in
front. -/

theorem ofDigits_toDigits (n : Nat) : Numeric.ofDigits (Nat.toDigits 10 n) = n :=
  Nat.ofDigitChars_ten_toDigits

theorem isDigit_of_mem {c : Char} {n : Nat} (h : c ∈ Nat.toDigits 10 n) : c.isDigit = true :=
  Nat.isDigit_of_mem_toDigits (by decide) (by decide) h

theorem digitChar_ne_zero : ∀ n < 10, 0 < n → [n.digitChar].head? ≠ some '0' := by
  decide

theorem no_leading_zero (n : Nat) :
    ((Nat.toDigits 10 n).length > 1 && (Nat.toDigits 10 n).head? == some '0') = false := by
  -- by induction along the tenths of the number, which lose its digits from behind
  induction n using Nat.strongRecOn with
  | _ n ih =>
    by_cases hsmall : n < 10
    · rw [Nat.toDigits_of_lt_base hsmall]
      rfl
    · have hne := Nat.toDigits_ne_nil (n := n / 10) (b := 10)
      have hfirst : (Nat.toDigits 10 (n / 10)).head? ≠ some '0' := by
        by_cases hshort : n / 10 < 10
        · rw [Nat.toDigits_of_lt_base hshort]
          exact digitChar_ne_zero (n / 10) hshort (by omega)
        · have hlong : 1 < (Nat.toDigits 10 (n / 10)).length := by
            rw [← Nat.not_le, Nat.length_toDigits_le_iff (by decide) (by decide)]
            omega
          simpa [hlong] using ih (n / 10) (by omega)
      -- the first digit is that of a tenth of the number, which is not zero
      rw [Nat.toDigits_of_base_le (by decide) (by omega), List.head?_append,
        Option.or_of_isSome (by simp)]
      simp [hfirst]

/-- What is taken ends with the first character that belongs to none. -/
theorem takeWhile_append_of_ends {p : Char → Bool} {cs rest : List Char}
    (hcs : ∀ c ∈ cs, p c = true) (hrest : ∀ c ∈ rest.head?, p c = false) :
    (cs ++ rest).takeWhile p = cs := by
  rw [List.takeWhile_append_of_pos hcs]
  cases rest with
  | nil => simp
  | cons c rest => rw [List.takeWhile_cons_of_neg (by simp [hrest c rfl]), List.append_nil]

/-- The sign in front of a magnitude. -/
def sign (minus : Bool) : List Char := if minus then ['-'] else []

/-- A number whose digits are followed by neither a digit nor a point. -/
theorem number?_of_digits (minus : Bool) (n : Nat) {rest : List Char}
    (hrest : ∀ c ∈ rest.head?, c.isDigit = false) (hpoint : rest.head? ≠ some '.') :
    number? (sign minus ++ (Nat.toDigits 10 n ++ rest)) =
      if rest = [] then some (if minus then .negative n else .natural n)
      else (exponent? rest).map fun e => .decimal ⟨minus, n, e.getD 0⟩ := by
  have hdigits := takeWhile_append_of_ends (fun _ => isDigit_of_mem (n := n)) hrest
  have hnonempty : (Nat.toDigits 10 n).isEmpty = false := by simp
  have hfirst : ∀ tail, Nat.toDigits 10 n ++ rest ≠ '-' :: tail := by
    intro tail h
    have hhead := congrArg List.head? h
    rw [List.head?_append, Option.or_of_isSome (by simp)] at hhead
    exact absurd (isDigit_of_mem (List.mem_of_mem_head? hhead)) (by decide)
  unfold number?
  split
  next minus' unsigned hsplit =>
  -- digits do not begin with a minus, so what is split off is the sign that was written
  obtain ⟨rfl, rfl⟩ : minus' = minus ∧ unsigned = Nat.toDigits 10 n ++ rest := by
    cases minus with
    | true => exact ⟨(Prod.mk.inj hsplit).1.symm, (Prod.mk.inj hsplit).2.symm⟩
    | false =>
      split at hsplit
      next tail htail => exact absurd htail (hfirst tail)
      exact ⟨(Prod.mk.inj hsplit).1.symm, (Prod.mk.inj hsplit).2.symm⟩
  -- the digits are all that is taken, and what follows them is nothing or an exponent
  simp only [hdigits, hnonempty, no_leading_zero, List.drop_left, ofDigits_toDigits, Bool.or_false,
    Bool.false_eq_true, if_false]
  split
  · simp
  · next tail => exact absurd rfl hpoint
  · next hne hne' =>
    rw [if_neg hne]
    cases exponent? rest <;> rfl

/-- An exponent as it is printed is read again, with its sign if it has one. -/
theorem exponent?_repr (e : Int) : exponent? ('e' :: (toString e).toList) = some (some e) := by
  have hdigits (n : Nat) :
      ((Nat.toDigits 10 n).isEmpty || !(Nat.toDigits 10 n).all Char.isDigit) = false := by
    have hall : (Nat.toDigits 10 n).all Char.isDigit = true :=
      List.all_eq_true.mpr fun _ => isDigit_of_mem
    simp [hall]
  cases e with
  | ofNat n =>
    have htext : (toString (Int.ofNat n)).toList = Nat.toDigits 10 n := Nat.toList_repr
    have hfirst : ∀ c tail, Nat.toDigits 10 n = c :: tail → c.isDigit = true := by
      intro c tail h
      exact isDigit_of_mem (h ▸ List.mem_cons_self)
    rw [htext]
    unfold exponent?
    dsimp only
    rw [if_neg (by decide)]
    split
    next tail htail => exact absurd (hfirst _ _ htail) (by decide)
    next tail htail => exact absurd (hfirst _ _ htail) (by decide)
    next =>
      dsimp only
      rw [hdigits, if_neg Bool.false_ne_true, ofDigits_toDigits, Int.one_mul]
      rfl
  | negSucc n =>
    have htext : (toString (Int.negSucc n)).toList = '-' :: Nat.toDigits 10 (n + 1) := by
      show ("-" ++ Nat.repr (n + 1)).toList = _
      rw [String.toList_append, Nat.toList_repr]
      rfl
    rw [htext]
    unfold exponent?
    dsimp only
    rw [if_neg (by decide)]
    show (if ((Nat.toDigits 10 (n + 1)).isEmpty ||
        !(Nat.toDigits 10 (n + 1)).all Char.isDigit) = true then none
      else some (some (-1 * (Numeric.ofDigits (Nat.toDigits 10 (n + 1)) : Int)))) = _
    rw [hdigits, if_neg Bool.false_ne_true, ofDigits_toDigits]
    exact congrArg _ (congrArg _ (by omega))

-- the three kinds of numbers in one form: a sign, digits, and what stands behind them

theorem toList_natural (n : Nat) :
    (scalarText (.natural n)).toList = sign false ++ (Nat.toDigits 10 n ++ []) := by
  show (Nat.repr n).toList = _
  rw [Nat.toList_repr, List.append_nil]
  rfl

theorem toList_negative (n : Nat) :
    (scalarText (.negative n)).toList = sign true ++ (Nat.toDigits 10 n ++ []) := by
  show ("-" ++ Nat.repr n).toList = _
  rw [String.toList_append, Nat.toList_repr, List.append_nil]
  rfl

theorem toList_decimal (d : Numeric.Decimal) : (scalarText (.decimal d)).toList =
    sign d.negative ++ (Nat.toDigits 10 d.digits ++ ('e' :: (toString d.exponent).toList)) := by
  show ((if d.negative then "-" else "") ++ Nat.repr d.digits ++ "e" ++
      toString d.exponent).toList = _
  rw [String.toList_append, String.toList_append, String.toList_append, Nat.toList_repr,
    List.append_assoc, List.append_assoc]
  cases d.negative <;> rfl

theorem number?_natural (n : Nat) :
    number? (scalarText (.natural n)).toList = some (.natural n) := by
  rw [toList_natural, number?_of_digits false n (by simp) (by simp), if_pos rfl]
  rfl

theorem number?_negative (n : Nat) :
    number? (scalarText (.negative n)).toList = some (.negative n) := by
  rw [toList_negative, number?_of_digits true n (by simp) (by simp), if_pos rfl]
  rfl

/-- A decimal is read again with the digits and the exponent it was written with. -/
theorem number?_decimal (d : Numeric.Decimal) :
    number? (scalarText (.decimal d)).toList = some (.decimal d) := by
  rw [toList_decimal, number?_of_digits d.negative d.digits (by simp) (by simp), if_neg (by simp),
    exponent?_repr]
  rfl

/-! ## Tokens

Cutting is said of a text from its end. What is known of the rest of a text is turned into what is
known of one more token in front, and so a whole text is put together from behind. -/

/-- A text that ends the number or the word in front of it. -/
def Ends (rest : List Char) : Prop := ∀ c ∈ rest.head?, isNumberChar c = false ∧ c.isAlpha = false

theorem ends_nil : Ends [] := by
  intro c hc
  exact nomatch hc

theorem ends_cons {c : Char} {rest : List Char} (h : isNumberChar c = false ∧ c.isAlpha = false) :
    Ends (c :: rest) := by
  rintro _ ⟨⟩
  exact h

/-- The characters are cut into the tokens. -/
def Cuts (cs : List Char) (ts : List Token) : Prop :=
  ∀ fuel done, cs.length ≤ fuel → tokens done fuel cs = some (done.reverse ++ ts)

namespace Cuts

variable {c : Char} {cs rest : List Char} {t : Token} {ts : List Token}

theorem nil : Cuts [] [] := by
  intro fuel done _
  cases fuel <;> rw [tokens, List.append_nil]

theorem blank (h : isBlank c = true) (hrest : Cuts rest ts) : Cuts (c :: rest) ts := by
  intro fuel done hfuel
  obtain ⟨fuel, rfl⟩ : ∃ n, fuel = n + 1 := ⟨fuel - 1, by simp at hfuel; omega⟩
  rw [tokens, if_pos h]
  exact hrest fuel done (by simpa using hfuel)

/-- A token of which one character is looked at first. -/
theorem token (hblank : isBlank c = false) (h : nextToken c (cs ++ rest) = some (t, rest))
    (hrest : Cuts rest ts) : Cuts (c :: (cs ++ rest)) (t :: ts) := by
  intro fuel done hfuel
  obtain ⟨fuel, rfl⟩ : ∃ n, fuel = n + 1 := ⟨fuel - 1, by simp at hfuel; omega⟩
  rw [tokens, hblank, if_neg Bool.false_ne_true, h]
  dsimp only
  rw [hrest fuel (t :: done) (by simp at hfuel; omega), List.reverse_cons, List.append_assoc]
  rfl

theorem mark (hblank : isBlank c = false) (h : ∀ rest, nextToken c rest = some (t, rest))
    (hrest : Cuts rest ts) : Cuts (c :: rest) (t :: ts) :=
  @token c [] rest t ts hblank (h rest) hrest

theorem comma (h : Cuts rest ts) : Cuts (',' :: rest) (.comma :: ts) := h.mark rfl fun _ => rfl

theorem colon (h : Cuts rest ts) : Cuts (':' :: rest) (.colon :: ts) := h.mark rfl fun _ => rfl

theorem openList (h : Cuts rest ts) : Cuts ('[' :: rest) (.openList :: ts) :=
  h.mark rfl fun _ => rfl

theorem closeList (h : Cuts rest ts) : Cuts (']' :: rest) (.closeList :: ts) :=
  h.mark rfl fun _ => rfl

theorem openObject (h : Cuts rest ts) : Cuts ('{' :: rest) (.openObject :: ts) :=
  h.mark rfl fun _ => rfl

theorem closeObject (h : Cuts rest ts) : Cuts ('}' :: rest) (.closeObject :: ts) :=
  h.mark rfl fun _ => rfl

/-- A string in its quotes is one token. -/
theorem quoted (s : String) (h : Cuts rest ts) :
    Cuts ((quote s).toList ++ rest) (.atom (.text s) :: ts) := by
  have hbody : nextToken '"' ((s.toList.flatMap escapeChar ++ ['"']) ++ rest) =
      some (.atom (.text s), rest) := by
    rw [List.append_assoc]
    show (stringBody (some []) (s.toList.flatMap escapeChar ++ '"' :: rest)).bind _ = _
    rw [stringBody_quoted, Option.bind_some]
    simp
  have hcuts := token rfl hbody h
  simpa [quote] using hcuts

theorem nextToken_number (hc : isNumberChar c = true) : nextToken c rest = (do
    let value ← number? (c :: rest.takeWhile isNumberChar)
    return (.atom value, rest.drop (rest.takeWhile isNumberChar).length)) := by
  have hother : ∀ mark, isNumberChar mark = false → c ≠ mark := by
    rintro mark hmark rfl
    rw [hc] at hmark
    exact absurd hmark (by decide)
  unfold nextToken
  rw [if_neg (hother '[' (by decide)), if_neg (hother ']' (by decide)),
    if_neg (hother '{' (by decide)), if_neg (hother '}' (by decide)),
    if_neg (hother ',' (by decide)), if_neg (hother ':' (by decide)),
    if_neg (hother '"' (by decide)), if_pos hc]

/-- A number is one token if something ends it: all its characters are taken, and no more. -/
theorem number {j : Json} (hvalue : number? cs = some j) (hall : ∀ c ∈ cs, isNumberChar c = true)
    (hends : Ends rest) (h : Cuts rest ts) : Cuts (cs ++ rest) (.atom j :: ts) := by
  cases cs with
  | nil => exact nomatch hvalue
  | cons c cs =>
    have htake : (cs ++ rest).takeWhile isNumberChar = cs :=
      takeWhile_append_of_ends (fun d hd => hall d (List.mem_cons_of_mem _ hd)) fun d hd =>
        (hends d hd).1
    have hc := hall c List.mem_cons_self
    -- none of the four blanks is a character of a number
    have hblank : isBlank c = false := by
      rw [← Bool.not_eq_true]
      intro hblank
      simp only [isBlank, Bool.or_eq_true, decide_eq_true_eq] at hblank
      rcases hblank with ((rfl | rfl) | rfl) | rfl <;> exact absurd hc (by decide)
    refine token hblank ?_ h
    rw [nextToken_number hc, htake, hvalue, List.drop_left]
    rfl

/-- A word begins with a letter that no number begins with. -/
theorem word {j : Json} (hfirst : c.isAlpha = true ∧ isNumberChar c = false)
    (hvalue : word? (c :: cs) = some j) (hall : cs.all Char.isAlpha = true) (hends : Ends rest)
    (h : Cuts rest ts) :
    Cuts (c :: (cs ++ rest)) (.atom j :: ts) := by
  have htake : (cs ++ rest).takeWhile Char.isAlpha = cs :=
    takeWhile_append_of_ends (List.all_eq_true.mp hall) fun d hd => (hends d hd).2
  -- a letter is none of the marks, which are looked for first
  have hother : ∀ mark, mark.isAlpha = false → c ≠ mark := by
    rintro mark hmark rfl
    rw [hfirst.1] at hmark
    exact absurd hmark (by decide)
  have hblank : isBlank c = false := by
    simp only [isBlank, Bool.or_eq_false_iff, decide_eq_false_iff_not]
    exact ⟨⟨⟨hother ' ' (by decide), hother '\n' (by decide)⟩, hother '\t' (by decide)⟩,
      hother '\r' (by decide)⟩
  refine token hblank ?_ h
  unfold nextToken
  rw [if_neg (hother '[' (by decide)), if_neg (hother ']' (by decide)),
    if_neg (hother '{' (by decide)), if_neg (hother '}' (by decide)),
    if_neg (hother ',' (by decide)), if_neg (hother ':' (by decide)),
    if_neg (hother '"' (by decide)), hfirst.2, if_neg Bool.false_ne_true]
  simp only [htake, hvalue, List.drop_left]
  rfl

/-- A sign, digits and what can stand behind them are characters of a number. -/
theorem isNumberChar_of_parts (minus : Bool) (n : Nat) {tail : List Char}
    (htail : ∀ c ∈ tail, isNumberChar c = true) :
    ∀ c ∈ sign minus ++ (Nat.toDigits 10 n ++ tail), isNumberChar c = true := by
  intro c hc
  rcases List.mem_append.mp hc with hsign | hc
  · cases minus with
    | true =>
      obtain rfl := List.mem_singleton.mp hsign
      decide
    | false => exact nomatch hsign
  rcases List.mem_append.mp hc with hdigit | hc
  · simp [isNumberChar, isDigit_of_mem hdigit]
  · exact htail c hc

/-- An integer is printed with characters of a number only. -/
theorem isNumberChar_of_repr {e : Int} : ∀ c ∈ (toString e).toList, isNumberChar c = true := by
  intro c hc
  cases e with
  | ofNat n =>
    have hc : c ∈ (Nat.repr n).toList := hc
    rw [Nat.toList_repr] at hc
    exact isNumberChar_of_parts false n (List.forall_mem_nil _) c (by simpa [sign] using hc)
  | negSucc n =>
    have hc : c ∈ ("-" ++ Nat.repr (n + 1)).toList := hc
    rw [String.toList_append, Nat.toList_repr] at hc
    exact isNumberChar_of_parts true (n + 1) (List.forall_mem_nil _) c (by simpa [sign] using hc)

/-- What is written of a value without parts is one token. -/
theorem scalar {j : Json} (hlist : ∀ items, j ≠ .list items)
    (hobject : ∀ fields, j ≠ .object fields) (hends : Ends rest) (h : Cuts rest ts) :
    Cuts ((scalarText j).toList ++ rest) (.atom j :: ts) := by
  cases j with
  | null =>
    rw [show (scalarText .null).toList = ['n', 'u', 'l', 'l'] by decide +kernel]
    exact word (by decide) rfl rfl hends h
  | boolean value =>
    cases value with
    | true =>
      rw [show (scalarText (.boolean true)).toList = ['t', 'r', 'u', 'e'] by decide +kernel]
      exact word (by decide) rfl rfl hends h
    | false =>
      rw [show (scalarText (.boolean false)).toList = ['f', 'a', 'l', 's', 'e'] by decide +kernel]
      exact word (by decide) rfl rfl hends h
  | natural n =>
    refine number (number?_natural n) ?_ hends h
    rw [toList_natural]
    exact isNumberChar_of_parts _ _ (by simp)
  | negative n =>
    refine number (number?_negative n) ?_ hends h
    rw [toList_negative]
    exact isNumberChar_of_parts _ _ (by simp)
  | decimal d =>
    refine number (number?_decimal d) ?_ hends h
    rw [toList_decimal]
    refine isNumberChar_of_parts _ _ fun c hc => ?_
    rcases List.mem_cons.mp hc with rfl | hc
    · decide
    · exact isNumberChar_of_repr c hc
  | text s => exact quoted s h
  -- values with parts are no single token
  | list items => exact absurd rfl (hlist items)
  | object fields => exact absurd rfl (hobject fields)

end Cuts

end Json
end Text
end CombatTrials
