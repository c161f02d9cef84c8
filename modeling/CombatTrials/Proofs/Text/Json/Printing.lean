import CombatTrials.Proofs.Text.Json.Lexing
import CombatTrials.Proofs.Text.Json.Presentation

/-!
# Reading what was printed

Both forms of a value, that on one line and that with one item to a line, are texts of the same
tokens (`tokensOf`), and the tokens are read as the value's term. So a value printed in either form
is read again as it was (`read?_compact`, `read?_pretty`). No value is left out: strings hold any
characters, integers and decimals are of any size, and lists and objects are nested to any depth.
-/

namespace CombatTrials
namespace Text
namespace Json

mutual

/-- The tokens of a value. -/
def tokensOf : Json → List Token
  | .list items => .openList :: tokensOfItems items
  | .object fields => .openObject :: tokensOfFields fields
  | j => [.atom j]

/-- The tokens of items and of the bracket behind them. -/
def tokensOfItems : List Json → List Token
  | [] => [.closeList]
  | [j] => j.tokensOf ++ [.closeList]
  | j :: rest => j.tokensOf ++ .comma :: tokensOfItems rest

/-- The tokens of fields and of the brace behind them. -/
def tokensOfFields : List (String × Json) → List Token
  | [] => [.closeObject]
  | [(name, j)] => .atom (.text name) :: .colon :: (j.tokensOf ++ [.closeObject])
  | (name, j) :: rest =>
    .atom (.text name) :: .colon :: (j.tokensOf ++ .comma :: tokensOfFields rest)

end

/-! ## From characters to tokens

For both forms of printing, by recursion on the value. The two differ in the blanks between tokens,
and blanks are cut off. -/

theorem ends_mark {c : Char} (hc : c = ',' ∨ c = ']' ∨ c = '}' ∨ c = '\n') (rest : List Char) :
    Ends (c :: rest) := by
  rcases hc with rfl | rfl | rfl | rfl <;> exact ends_cons (by decide)

mutual

/-- A value on one line is cut into its tokens. By recursion on the value, with all that follows it:
what is known of the rest of a text is turned into what is known of the whole from behind. -/
theorem cuts_compact :
    ∀ (j : Json) {rest : List Char} {ts : List Token}, Ends rest → Cuts rest ts →
      Cuts (j.compact.toList ++ rest) (j.tokensOf ++ ts)
  | .null, _, _, hends, h => h.scalar (j := .null) nofun nofun hends
  | .boolean b, _, _, hends, h => h.scalar (j := .boolean b) nofun nofun hends
  | .natural n, _, _, hends, h => h.scalar (j := .natural n) nofun nofun hends
  | .negative n, _, _, hends, h => h.scalar (j := .negative n) nofun nofun hends
  | .decimal d, _, _, hends, h => h.scalar (j := .decimal d) nofun nofun hends
  | .text s, _, _, hends, h => h.scalar (j := .text s) nofun nofun hends
  | .list items, rest, ts, hends, h => by
    have hitems := cuts_compactItems items h
    simpa [compact, tokensOf] using hitems.openList
  | .object fields, rest, ts, hends, h => by
    have hfields := cuts_compactFields fields h
    simpa [compact, tokensOf] using hfields.openObject

theorem cuts_compactItems :
    ∀ (items : List Json) {rest : List Char} {ts : List Token}, Cuts rest ts →
      Cuts ((compactItems items).toList ++ ']' :: rest) (tokensOfItems items ++ ts)
  | [], rest, ts, h => by simpa [compactItems, tokensOfItems] using h.closeList
  | [j], rest, ts, h => by
    have hfirst := cuts_compact j (ends_mark (by simp) rest) h.closeList
    simpa [compactItems, tokensOfItems] using hfirst
  | j :: j' :: others, rest, ts, h => by
    have hothers := cuts_compactItems (j' :: others) h
    have hfirst := cuts_compact j (ends_mark (by simp) _) hothers.comma
    simpa [compactItems, tokensOfItems] using hfirst

theorem cuts_compactFields :
    ∀ (fields : List (String × Json)) {rest : List Char} {ts : List Token}, Cuts rest ts →
      Cuts ((compactFields fields).toList ++ '}' :: rest) (tokensOfFields fields ++ ts)
  | [], rest, ts, h => by simpa [compactFields, tokensOfFields] using h.closeObject
  | [(name, j)], rest, ts, h => by
    have hfirst := cuts_compact j (ends_mark (by simp) rest) h.closeObject
    simpa [compactFields, tokensOfFields] using hfirst.colon.quoted name
  | (name, j) :: field :: others, rest, ts, h => by
    have hothers := cuts_compactFields (field :: others) h
    have hfirst := cuts_compact j (ends_mark (by simp) _) hothers.comma
    simpa [compactFields, tokensOfFields] using hfirst.colon.quoted name

end

/-- A line end and the spaces behind it are no tokens. -/
theorem cuts_newline (level : Nat) {rest : List Char} {ts : List Token} (h : Cuts rest ts) :
    Cuts ((newline level).toList ++ rest) ts := by
  have hindent : ∀ n, Cuts (List.replicate n ' ' ++ rest) ts := by
    intro n
    induction n with
    | zero => exact h
    | succ n ih => exact ih.blank rfl
  simpa [newline] using (hindent (2 * level)).blank (c := '\n') rfl

theorem ends_newline (level : Nat) (rest : List Char) : Ends ((newline level).toList ++ rest) := by
  simpa [newline] using ends_mark (by simp) _

mutual

/-- A value with one item to a line is cut into the same tokens, at any level. -/
theorem cuts_prettyAt :
    ∀ (j : Json) (level : Nat) {rest : List Char} {ts : List Token}, Ends rest → Cuts rest ts →
      Cuts ((j.prettyAt level).toList ++ rest) (j.tokensOf ++ ts)
  | .null, _, _, _, hends, h => h.scalar (j := .null) nofun nofun hends
  | .boolean b, _, _, _, hends, h => h.scalar (j := .boolean b) nofun nofun hends
  | .natural n, _, _, _, hends, h => h.scalar (j := .natural n) nofun nofun hends
  | .negative n, _, _, _, hends, h => h.scalar (j := .negative n) nofun nofun hends
  | .decimal d, _, _, _, hends, h => h.scalar (j := .decimal d) nofun nofun hends
  | .text s, _, _, _, hends, h => h.scalar (j := .text s) nofun nofun hends
  -- without any items there is no line end either
  | .list [], _, rest, ts, hends, h => by
    simpa [prettyAt, tokensOf, tokensOfItems] using h.closeList.openList
  | .list (j :: items), level, rest, ts, hends, h => by
    have hitems := cuts_prettyItems (j :: items) (level + 1) level h
    simpa [prettyAt, tokensOf] using hitems.openList
  | .object [], _, rest, ts, hends, h => by
    simpa [prettyAt, tokensOf, tokensOfFields] using h.closeObject.openObject
  | .object (field :: fields), level, rest, ts, hends, h => by
    have hfields := cuts_prettyFields (field :: fields) (level + 1) level h
    simpa [prettyAt, tokensOf] using hfields.openObject

/-- The items of a list with one to a line, and the line with its bracket. -/
theorem cuts_prettyItems :
    ∀ (items : List Json) (level level' : Nat) {rest : List Char} {ts : List Token},
      Cuts rest ts →
      Cuts ((prettyItems level items).toList ++ ((newline level').toList ++ ']' :: rest))
        (tokensOfItems items ++ ts)
  | [], _, level', rest, ts, h => by
    simpa [prettyItems, tokensOfItems] using cuts_newline level' h.closeList
  -- the last item stands in front of a line end and not of a comma
  | [j], level, level', rest, ts, h => by
    have hfirst := cuts_prettyAt j level (ends_newline level' _) (cuts_newline level' h.closeList)
    simpa [prettyItems, tokensOfItems] using cuts_newline level hfirst
  | j :: j' :: others, level, level', rest, ts, h => by
    have hothers := cuts_prettyItems (j' :: others) level level' h
    have hfirst := cuts_prettyAt j level (ends_mark (by simp) _) hothers.comma
    simpa [prettyItems, tokensOfItems] using cuts_newline level hfirst

/-- The fields of an object with one to a line, and the line with its brace. -/
theorem cuts_prettyFields :
    ∀ (fields : List (String × Json)) (level level' : Nat) {rest : List Char} {ts : List Token},
      Cuts rest ts →
      Cuts ((prettyFields level fields).toList ++ ((newline level').toList ++ '}' :: rest))
        (tokensOfFields fields ++ ts)
  | [], _, level', rest, ts, h => by
    simpa [prettyFields, tokensOfFields] using cuts_newline level' h.closeObject
  | [(name, j)], level, level', rest, ts, h => by
    have hfirst := cuts_prettyAt j level (ends_newline level' _) (cuts_newline level' h.closeObject)
    have hfield := (hfirst.blank (c := ' ') rfl).colon.quoted name
    simpa [prettyFields, tokensOfFields] using cuts_newline level hfield
  | (name, j) :: field :: others, level, level', rest, ts, h => by
    have hothers := cuts_prettyFields (field :: others) level level' h
    have hfirst := cuts_prettyAt j level (ends_mark (by simp) _) hothers.comma
    have hfield := (hfirst.blank (c := ' ') rfl).colon.quoted name
    simpa [prettyFields, tokensOfFields] using cuts_newline level hfield

end

/-! ## From tokens to terms

Reading is by fuel, of which a unit for every token is enough. What follows the tokens of a value is
left, so that the items of a list can be read one after the other. -/

/-- The tokens of a value begin with none that closes a list or an object. -/
theorem exists_tokensOf (j : Json) :
    ∃ t ts, j.tokensOf = t :: ts ∧
      (∀ rest fuel, Term.next? (fuel + 1) (.openList :: t :: rest) = (do
        let (items, rest) ← Term.items? fuel (t :: rest)
        return (.list items, rest))) := by
  cases j <;> exact ⟨_, _, rfl, fun _ _ => rfl⟩

mutual

theorem next?_tokensOf :
    ∀ (j : Json) (rest : List Token) (fuel : Nat), j.tokensOf.length ≤ fuel →
      Term.next? fuel (j.tokensOf ++ rest) = some (j.toTerm, rest)
  | .null, _, _ + 1, _ => rfl
  | .boolean _, _, _ + 1, _ => rfl
  | .natural _, _, _ + 1, _ => rfl
  | .negative _, _, _ + 1, _ => rfl
  | .decimal _, _, _ + 1, _ => rfl
  | .text _, _, _ + 1, _ => rfl
  | .list [], _, _ + 1, _ => rfl
  | .list (j :: items), rest, fuel + 1, h => by
    -- the reader looks for a closing bracket first, and no item begins with one
    obtain ⟨t, ts, hfirst, hopen⟩ := exists_tokensOf j
    have hitems := items?_tokensOf j items rest fuel (by simpa [tokensOf] using h)
    obtain ⟨ts', hts'⟩ : ∃ ts', tokensOfItems (j :: items) ++ rest = t :: ts' := by
      cases items <;> simp [tokensOfItems, hfirst]
    show Term.next? (fuel + 1) (.openList :: (tokensOfItems (j :: items) ++ rest)) = _
    rw [hts'] at hitems ⊢
    rw [hopen, hitems]
    rfl
  | .object [], _, _ + 1, _ => rfl
  | .object ((name, j) :: fields), rest, fuel + 1, h => by
    have hfields := fields?_tokensOf name j fields rest fuel (by simpa [tokensOf] using h)
    obtain ⟨ts', hts'⟩ :
        ∃ ts', tokensOfFields ((name, j) :: fields) ++ rest = .atom (.text name) :: ts' := by
      cases fields <;> simp [tokensOfFields]
    show Term.next? (fuel + 1) (.openObject :: (tokensOfFields ((name, j) :: fields) ++ rest)) = _
    rw [hts'] at hfields ⊢
    show (Term.fields? fuel (.atom (.text name) :: ts')).bind _ = _
    rw [hfields]
    rfl
  | j, _, 0, h => by
    obtain ⟨t, ts, hfirst, -⟩ := exists_tokensOf j
    rw [hfirst] at h
    exact absurd h (by simp)

/-- The tokens of items are read as their terms, if there are any items. -/
theorem items?_tokensOf :
    ∀ (j : Json) (items : List Json) (rest : List Token) (fuel : Nat),
      (tokensOfItems (j :: items)).length ≤ fuel →
      Term.items? fuel (tokensOfItems (j :: items) ++ rest) = some (toTerms (j :: items), rest)
  | j, [], rest, fuel + 1, h => by
    have hfirst := next?_tokensOf j (.closeList :: rest) fuel (by simpa [tokensOfItems] using h)
    simp [tokensOfItems, Term.items?, hfirst, toTerms]
  | j, j' :: items, rest, fuel + 1, h => by
    have hlength : j.tokensOf.length + (tokensOfItems (j' :: items)).length ≤ fuel := by
      simp [tokensOfItems] at h ⊢
      omega
    have hfirst :=
      next?_tokensOf j (.comma :: (tokensOfItems (j' :: items) ++ rest)) fuel (by omega)
    have hothers := items?_tokensOf j' items rest fuel (by omega)
    simp [tokensOfItems, Term.items?, hfirst, hothers, toTerms]
  | j, items, _, 0, h => by
    cases items <;> simp [tokensOfItems] at h

/-- The tokens of fields are read as their names and terms, if there are any fields. -/
theorem fields?_tokensOf :
    ∀ (name : String) (j : Json) (fields : List (String × Json)) (rest : List Token) (fuel : Nat),
      (tokensOfFields ((name, j) :: fields)).length ≤ fuel →
      Term.fields? fuel (tokensOfFields ((name, j) :: fields) ++ rest) =
        some (toFields ((name, j) :: fields), rest)
  | name, j, [], rest, fuel + 1, h => by
    have hfirst := next?_tokensOf j (.closeObject :: rest) fuel
      (by simp [tokensOfFields] at h; omega)
    simp [tokensOfFields, Term.fields?, fieldName?, hfirst, toFields]
  | name, j, (name', j') :: fields, rest, fuel + 1, h => by
    have hlength : j.tokensOf.length + (tokensOfFields ((name', j') :: fields)).length ≤ fuel := by
      simp [tokensOfFields] at h ⊢
      omega
    have hfirst :=
      next?_tokensOf j (.comma :: (tokensOfFields ((name', j') :: fields) ++ rest)) fuel (by omega)
    have hothers := fields?_tokensOf name' j' fields rest fuel (by omega)
    simp [tokensOfFields, Term.fields?, fieldName?, hfirst, hothers, toFields]
  | name, j, fields, _, 0, h => by
    cases fields <;> simp [tokensOfFields] at h

end

/-- A text with the tokens of a value is read as the value's term. -/
theorem read?_of_cuts {s : String} {j : Json} (h : Cuts s.toList j.tokensOf) :
    Term.read? s = some j.toTerm := by
  have htokens := h s.toList.length [] (Nat.le_refl _)
  have hterm := next?_tokensOf j [] (j.tokensOf.length + 1) (Nat.le_succ _)
  rw [List.append_nil] at hterm
  unfold Term.read?
  simp only [htokens, List.reverse_nil, List.nil_append, hterm, Option.bind_eq_bind,
    Option.bind_some]

theorem read?_compact (j : Json) : Term.read? j.compact = some j.toTerm := by
  refine read?_of_cuts ?_
  simpa using cuts_compact j ends_nil .nil

theorem read?_pretty (j : Json) : Term.read? j.pretty = some j.toTerm := by
  refine read?_of_cuts ?_
  simpa [pretty] using cuts_prettyAt j 0 ends_nil .nil

end Json
end Text
end CombatTrials
