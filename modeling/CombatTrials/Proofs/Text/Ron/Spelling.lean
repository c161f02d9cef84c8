import CombatTrials.Text.Ron.Reader

/-!
# How data are spelled

The grammar of object notation as a relation between a datum and its tokens. It says of each kind of
datum which tokens stand for it, and leaves the writer the choices that the notation leaves: a comma
may follow the last item, field or entry, parentheses without anything in them may touch or not, and
a text may ask for extensions first.

The reader finds the datum that was spelled (`Document.ofTokens?_of_spelled`), so no text means two
things. What it does is settled by the tokens in front alone, except that a word ends where no
parenthesis follows. A datum is followed by a comma, a colon or a closing mark, or by nothing
(`Stops`), and none of these goes on with it.
-/

namespace CombatTrials
namespace Text
namespace Ron

/-! ## The grammar

The relations follow the grammar of the notation, rule by rule. Where it leaves a choice there are
two rules for one datum, and where it does not there is one. -/

mutual

/-- The tokens that a datum is spelled with. -/
inductive Datum.Spelled : Datum → List Token → Prop
  | number (lexeme : String) : Datum.Spelled (.number lexeme) [.number lexeme]
  | text (value : String) : Datum.Spelled (.text value) [.text value]
  | char (value : Char) : Datum.Spelled (.char value) [.char value]
  | unit : Datum.Spelled .unit [.unit]
  | word {w : Word} (hw : w.isSome = false) : Datum.Spelled (.word w) [.word w]
  | list {items : List Datum} {ts : List Token} (h : ItemsSpelled ']' items ts) :
      Datum.Spelled (.list items) (.mark '[' :: ts)
  | map {entries : List (Datum × Datum)} {ts : List Token} (h : EntriesSpelled entries ts) :
      Datum.Spelled (.map entries) (.mark '{' :: ts)
  | group {body : Body} {ts : List Token} (h : Body.Spelled body ts) :
      Datum.Spelled (.group none body) (.mark '(' :: ts)
  | named {w : Word} {body : Body} {ts : List Token} (hw : w.isValue = false)
      (h : Body.Spelled body ts) :
    Datum.Spelled (.group (some w) body) (.word w :: .mark '(' :: ts)
  | namedUnit {w : Word} (hw : w.isValue = false) :
      Datum.Spelled (.group (some w) (.items [])) [.word w, .unit]

/-- What stands behind an opening parenthesis, with the closing one. -/
inductive Body.Spelled : Body → List Token → Prop
  | items {items : List Datum} {ts : List Token} (h : ItemsSpelled ')' items ts) :
      Body.Spelled (.items items) ts
  | fields {field : String × Datum} {fields : List (String × Datum)} {ts : List Token}
      (h : FieldsSpelled (field :: fields) ts) : Body.Spelled (.fields (field :: fields)) ts

/-- Items with commas between them, and perhaps one behind them, up to the closing mark. -/
inductive ItemsSpelled : Char → List Datum → List Token → Prop
  | nil {close : Char} : ItemsSpelled close [] [.mark close]
  | last {close : Char} {d : Datum} {ts : List Token} (hd : Datum.Spelled d ts) :
      ItemsSpelled close [d] (ts ++ [.mark close])
  | cons {close : Char} {d : Datum} {items : List Datum} {ts ts' : List Token}
      (hd : Datum.Spelled d ts) (h : ItemsSpelled close items ts') :
      ItemsSpelled close (d :: items) (ts ++ .mark ',' :: ts')

/-- Fields with commas between them, and perhaps one behind them, up to the closing parenthesis. -/
inductive FieldsSpelled : List (String × Datum) → List Token → Prop
  | nil : FieldsSpelled [] [.mark ')']
  | last {w : Word} {d : Datum} {ts : List Token} (hd : Datum.Spelled d ts) :
      FieldsSpelled [(w.name, d)] (.word w :: .mark ':' :: (ts ++ [.mark ')']))
  | cons {w : Word} {d : Datum} {fields : List (String × Datum)} {ts ts' : List Token}
      (hd : Datum.Spelled d ts) (h : FieldsSpelled fields ts') :
      FieldsSpelled ((w.name, d) :: fields) (.word w :: .mark ':' :: (ts ++ .mark ',' :: ts'))

/-- Entries with commas between them, and perhaps one behind them, up to the closing brace. -/
inductive EntriesSpelled : List (Datum × Datum) → List Token → Prop
  | nil : EntriesSpelled [] [.mark '}']
  | last {k d : Datum} {ts ts' : List Token} (hk : Datum.Spelled k ts) (hd : Datum.Spelled d ts') :
      EntriesSpelled [(k, d)] (ts ++ .mark ':' :: (ts' ++ [.mark '}']))
  | cons {k d : Datum} {entries : List (Datum × Datum)} {ts ts' ts'' : List Token}
      (hk : Datum.Spelled k ts) (hd : Datum.Spelled d ts') (h : EntriesSpelled entries ts'') :
      EntriesSpelled ((k, d) :: entries) (ts ++ .mark ':' :: (ts' ++ .mark ',' :: ts''))

end

/-- Names of extensions with commas between them, and perhaps one behind them, up to the closing
marks. -/
inductive ExtensionsSpelled : List String → List Token → Prop
  | last {w : Word} (hw : w.name ∈ extensionNames) :
      ExtensionsSpelled [w.name] [.word w, .mark ')', .mark ']']
  | comma {w : Word} (hw : w.name ∈ extensionNames) :
      ExtensionsSpelled [w.name] [.word w, .mark ',', .mark ')', .mark ']']
  | cons {w : Word} {names : List String} {ts : List Token} (hw : w.name ∈ extensionNames)
      (h : ExtensionsSpelled names ts) :
      ExtensionsSpelled (w.name :: names) (.word w :: .mark ',' :: ts)

/-- The extensions that a text asks for before its value. -/
inductive HeaderSpelled : List String → List Token → Prop
  | none : HeaderSpelled [] []
  | enable {names more : List String} {ts ts' : List Token} (h : ExtensionsSpelled names ts)
      (hmore : HeaderSpelled more ts') :
      HeaderSpelled (names ++ more)
        (.mark '#' :: .mark '!' :: .mark '[' :: .word ⟨"enable", false⟩ :: .mark '(' :: (ts ++ ts'))

/-- The tokens of a document. -/
def Document.Spelled (document : Document) (ts : List Token) : Prop :=
  ∃ names header body, HeaderSpelled names header ∧ document.value.Spelled body ∧
    document.implicitSome = names.contains "implicit_some" ∧ ts = header ++ body

/-! ## What stands behind a datum and in front

Data follow each other without anything between them but marks. So it is enough to know what may
stand in front of a mark that ends a datum, and behind it. -/

/-- The marks that end a datum. None begins one. -/
def endMarks : List Char := [',', ':', ')', ']', '}']

/-- Tokens that do not go on with the datum in front of them. -/
def Stops (rest : List Token) : Prop := ∀ t ∈ rest.head?, ∃ c ∈ endMarks, t = .mark c

theorem stops_nil : Stops [] := by
  intro t ht
  exact nomatch ht

theorem stops_mark {c : Char} (hc : c ∈ endMarks) (rest : List Token) :
    Stops (.mark c :: rest) := by
  rintro _ ⟨⟩
  exact ⟨c, hc, rfl⟩

theorem datum?_word {w : Word} (hw : w.isSome = false) {rest : List Token} (h : Stops rest)
    (fuel : Nat) : datum? (fuel + 1) (.word w :: rest) = some (.word w, rest) := by
  cases rest with
  | nil => simp [datum?, hw]
  | cons t rest =>
    obtain ⟨c, hc, rfl⟩ := h t rfl
    simp only [endMarks, List.mem_cons, List.not_mem_nil, or_false] at hc
    -- five marks may follow, and none of them is a parenthesis that opens
    rcases hc with rfl | rfl | rfl | rfl | rfl <;> simp [datum?, hw]

/-- Every datum has a first token, and it is not one of the marks that end a datum. -/
theorem Datum.Spelled.exists_first {d : Datum} {ts : List Token} (h : d.Spelled ts) :
    ∃ t rest, ts = t :: rest ∧ ∀ c ∈ endMarks, t ≠ .mark c := by
  cases h <;> exact ⟨_, _, rfl, by simp [endMarks]⟩

/-- Whatever follows a datum, its tokens do not begin with a mark that ends one. -/
theorem Datum.Spelled.head?_ne {d : Datum} {ts : List Token} (h : d.Spelled ts) {c : Char}
    (hc : c ∈ endMarks) (rest : List Token) : (ts ++ rest).head? ≠ some (.mark c) := by
  obtain ⟨t, ts', rfl, hfirst⟩ := h.exists_first
  simpa using hfirst c hc

theorem ItemsSpelled.ne_field {close : Char} {items : List Datum} {ts : List Token}
    (h : ItemsSpelled close items ts) (hclose : close ≠ ':') (rest : List Token) (w : Word)
    (rest' : List Token) :
    ts ++ rest ≠ .word w :: .mark ':' :: rest' := by
  cases h with
  | nil => simp
  | last hd => cases hd <;> simp [hclose]
  | cons hd _ => cases hd <;> simp

/-! ## One step of the reader

These open the reader once each. What follows uses them and not its text. -/

theorem body?_of_ne_field {ts : List Token} (h : ∀ w rest, ts ≠ .word w :: .mark ':' :: rest)
    (fuel : Nat) :
    body? (fuel + 1) ts = (items? ')' fuel ts).map fun (items, rest) => (.items items, rest) := by
  rw [body?]
  · cases items? ')' fuel ts <;> rfl
  · exact fun w rest => h w rest

theorem body?_of_field {w : Word} {rest : List Token} (fuel : Nat) :
    body? (fuel + 1) (.word w :: .mark ':' :: rest) =
      (fields? fuel (.word w :: .mark ':' :: rest)).map fun (fields, rest) =>
        (.fields fields, rest) := by
  rw [body?]
  cases fields? fuel (.word w :: .mark ':' :: rest) <;> rfl

section

variable {close : Char} {d : Datum} {ts rest : List Token} {fuel : Nat}

-- a list ends at its closing mark, or its last item is followed by that, or by a comma and the rest
-- of the list; the same three steps for fields and entries

theorem items?_nil : items? close (fuel + 1) (.mark close :: rest) = some ([], rest) := by
  simp [items?]

theorem items?_last (hfirst : ts.head? ≠ some (.mark close)) (hclose : close ≠ ',')
    (hd : datum? fuel ts = some (d, .mark close :: rest)) :
    items? close (fuel + 1) ts = some ([d], rest) := by
  simp [items?, hfirst, hd, hclose]

theorem items?_cons (hfirst : ts.head? ≠ some (.mark close))
    (hd : datum? fuel ts = some (d, .mark ',' :: rest)) :
    items? close (fuel + 1) ts = (items? close fuel rest).map fun (items, rest) =>
      (d :: items, rest) := by
  simp only [items?, hd]
  rw [if_neg (by simpa using hfirst)]
  cases items? close fuel rest <;> rfl

theorem entries?_last (hfirst : ts.head? ≠ some (.mark '}')) {k : Datum} {rest' : List Token}
    (hk : datum? fuel ts = some (k, .mark ':' :: rest'))
    (hd : datum? fuel rest' = some (d, .mark '}' :: rest)) :
    entries? (fuel + 1) ts = some ([(k, d)], rest) := by
  rw [entries?]
  · simp [hk, hd]
  · rintro rest rfl
    exact hfirst rfl

theorem entries?_cons (hfirst : ts.head? ≠ some (.mark '}')) {k : Datum} {rest' : List Token}
    (hk : datum? fuel ts = some (k, .mark ':' :: rest'))
    (hd : datum? fuel rest' = some (d, .mark ',' :: rest)) :
    entries? (fuel + 1) ts = (entries? fuel rest).map fun (entries, rest) =>
      ((k, d) :: entries, rest) := by
  rw [entries?]
  · simp only [hk, hd]
    cases entries? fuel rest <;> rfl
  · rintro rest rfl
    exact hfirst rfl

end

/-! ## Reading what was spelled

Two units of fuel are enough for every token. A group without a name takes the most, three units
before its first item is read, and has a token before that and one behind.
-/

mutual

/-- A datum is found in front of anything that stops it. By recursion on the spelling. -/
theorem datum?_of_spelled {d : Datum} {ts : List Token} (h : d.Spelled ts) {rest : List Token}
    (hrest : Stops rest) (fuel : Nat) (hfuel : 2 * ts.length ≤ fuel) :
    datum? fuel (ts ++ rest) = some (d, rest) := by
  -- a spelling is not empty, so there is fuel for a first step
  obtain ⟨fuel, rfl⟩ : ∃ n, fuel = n + 1 := by
    obtain ⟨t, ts', rfl, -⟩ := h.exists_first
    rw [List.length_cons] at hfuel
    exact ⟨fuel - 1, by omega⟩
  match h with
  | .number _ => rfl
  | .text _ => rfl
  | .char _ => rfl
  | .unit => rfl
  | .word hw =>
    -- a parenthesis behind the word would be taken for its contents, but what follows stops it
    exact datum?_word hw hrest fuel
  | .list hitems =>
    rw [List.length_cons] at hfuel
    have hread := items?_of_spelled hitems (by decide) (by decide) rest fuel (by omega)
    simp only [List.cons_append, datum?, hread, Option.bind_eq_bind, Option.bind_some,
      Option.pure_def]
  | .map hentries =>
    rw [List.length_cons] at hfuel
    have hread := entries?_of_spelled hentries rest fuel (by omega)
    simp only [List.cons_append, datum?, hread, Option.bind_eq_bind, Option.bind_some,
      Option.pure_def]
  | .group hbody =>
    rw [List.length_cons] at hfuel
    have hread := body?_of_spelled hbody rest fuel (by omega)
    simp only [List.cons_append, datum?, hread, Option.bind_eq_bind, Option.bind_some,
      Option.pure_def]
  | .named hw hbody =>
    rw [List.length_cons, List.length_cons] at hfuel
    have hread := body?_of_spelled hbody rest fuel (by omega)
    simp only [List.cons_append, datum?, hw, hread, Option.bind_eq_bind, Option.bind_some,
      Option.pure_def, Bool.false_eq_true, if_false]
  | .namedUnit hw => simp [datum?, hw]

/-- What stands in parentheses is found with anything behind them. -/
theorem body?_of_spelled {body : Body} {ts : List Token} (h : body.Spelled ts) (rest : List Token)
    (fuel : Nat) (hfuel : 2 * ts.length < fuel) : body? fuel (ts ++ rest) = some (body, rest) := by
  obtain ⟨fuel, rfl⟩ : ∃ n, fuel = n + 1 := ⟨fuel - 1, by omega⟩
  match h with
  | .items hitems =>
    have hread := items?_of_spelled hitems (by decide) (by decide) rest fuel (by omega)
    rw [body?_of_ne_field (hitems.ne_field (by decide) rest), hread]
    rfl
  | .fields hfields =>
    have hread := fields?_of_spelled hfields rest fuel (by omega)
    -- there is a first field, and it begins with a word and a colon
    cases hfields <;>
    · rw [List.cons_append, List.cons_append] at hread ⊢
      rw [body?_of_field, hread]
      rfl

theorem items?_of_spelled {close : Char} {items : List Datum} {ts : List Token}
    (h : ItemsSpelled close items ts) (hclose : close ∈ endMarks) (hcomma : close ≠ ',')
    (rest : List Token) (fuel : Nat) (hfuel : 2 * ts.length ≤ fuel) :
    items? close fuel (ts ++ rest) = some (items, rest) := by
  match h with
  | .nil =>
    obtain ⟨fuel, rfl⟩ : ∃ n, fuel = n + 1 := ⟨fuel - 1, by simp at hfuel; omega⟩
    exact items?_nil
  | .last hd =>
    rw [List.length_append, List.length_singleton] at hfuel
    obtain ⟨fuel, rfl⟩ : ∃ n, fuel = n + 1 := ⟨fuel - 1, by omega⟩
    have hread := datum?_of_spelled hd (stops_mark hclose rest) fuel (by omega)
    rw [List.append_assoc]
    exact items?_last (hd.head?_ne hclose _) hcomma hread
  | @ItemsSpelled.cons _ _ _ _ ts' hd hitems =>
    rw [List.length_append, List.length_cons] at hfuel
    obtain ⟨fuel, rfl⟩ : ∃ n, fuel = n + 1 := ⟨fuel - 1, by omega⟩
    have hread :=
      datum?_of_spelled hd (stops_mark (c := ',') (by decide) (ts' ++ rest)) fuel (by omega)
    -- the others are read from behind the comma, with the fuel that is left
    have hothers := items?_of_spelled hitems hclose hcomma rest fuel (by omega)
    rw [List.append_assoc, List.cons_append, items?_cons (hd.head?_ne hclose _) hread, hothers]
    rfl

theorem fields?_of_spelled {fields : List (String × Datum)} {ts : List Token}
    (h : FieldsSpelled fields ts) (rest : List Token) (fuel : Nat) (hfuel : 2 * ts.length ≤ fuel) :
    fields? fuel (ts ++ rest) = some (fields, rest) := by
  match h with
  | .nil =>
    obtain ⟨fuel, rfl⟩ : ∃ n, fuel = n + 1 := ⟨fuel - 1, by simp at hfuel; omega⟩
    rfl
  | .last hd =>
    rw [List.length_cons, List.length_cons, List.length_append, List.length_singleton] at hfuel
    obtain ⟨fuel, rfl⟩ : ∃ n, fuel = n + 1 := ⟨fuel - 1, by omega⟩
    have hread := datum?_of_spelled hd (stops_mark (c := ')') (by decide) rest) fuel (by omega)
    simp only [List.cons_append, List.append_assoc, List.nil_append, fields?, hread]
  | @FieldsSpelled.cons _ _ _ _ ts' hd hfields =>
    rw [List.length_cons, List.length_cons, List.length_append, List.length_cons] at hfuel
    obtain ⟨fuel, rfl⟩ : ∃ n, fuel = n + 1 := ⟨fuel - 1, by omega⟩
    have hread :=
      datum?_of_spelled hd (stops_mark (c := ',') (by decide) (ts' ++ rest)) fuel (by omega)
    have hothers := fields?_of_spelled hfields rest fuel (by omega)
    simp only [List.cons_append, List.append_assoc, fields?, hread, hothers, Option.bind_eq_bind,
      Option.bind_some, Option.pure_def]

/-- The entries of a map are found, up to its closing brace. -/
theorem entries?_of_spelled {entries : List (Datum × Datum)} {ts : List Token}
    (h : EntriesSpelled entries ts) (rest : List Token) (fuel : Nat)
    (hfuel : 2 * ts.length ≤ fuel) :
    entries? fuel (ts ++ rest) = some (entries, rest) := by
  match h with
  | .nil =>
    obtain ⟨fuel, rfl⟩ : ∃ n, fuel = n + 1 := ⟨fuel - 1, by simp at hfuel; omega⟩
    rfl
  | @EntriesSpelled.last _ _ ts ts' hk hd =>
    rw [List.length_append, List.length_cons, List.length_append, List.length_singleton] at hfuel
    obtain ⟨fuel, rfl⟩ : ∃ n, fuel = n + 1 := ⟨fuel - 1, by omega⟩
    -- a key is a datum of its own, which a colon ends
    have hkey :=
      datum?_of_spelled hk (stops_mark (c := ':') (by decide) (ts' ++ .mark '}' :: rest))
        fuel (by omega)
    have hread := datum?_of_spelled hd (stops_mark (c := '}') (by decide) rest) fuel (by omega)
    have htokens : ts ++ .mark ':' :: (ts' ++ [.mark '}']) ++ rest =
        ts ++ .mark ':' :: (ts' ++ .mark '}' :: rest) := by
      simp
    rw [htokens]
    exact entries?_last (hk.head?_ne (by decide) _) hkey hread
  | @EntriesSpelled.cons _ _ _ ts ts' ts'' hk hd hentries =>
    rw [List.length_append, List.length_cons, List.length_append, List.length_cons] at hfuel
    obtain ⟨fuel, rfl⟩ : ∃ n, fuel = n + 1 := ⟨fuel - 1, by omega⟩
    have hkey :=
      datum?_of_spelled hk (stops_mark (c := ':') (by decide) (ts' ++ .mark ',' :: (ts'' ++ rest)))
        fuel (by omega)
    have hread :=
      datum?_of_spelled hd (stops_mark (c := ',') (by decide) (ts'' ++ rest)) fuel (by omega)
    have hothers := entries?_of_spelled hentries rest fuel (by omega)
    have htokens : ts ++ .mark ':' :: (ts' ++ .mark ',' :: ts'') ++ rest =
        ts ++ .mark ':' :: (ts' ++ .mark ',' :: (ts'' ++ rest)) := by
      simp
    rw [htokens, entries?_cons (hk.head?_ne (by decide) _) hkey hread, hothers]
    rfl

end

/-! ## Documents

A text may ask for extensions several times before its value. They are collected, and the value is
what comes behind the last of them. -/

theorem ExtensionsSpelled.exists_first {names : List String} {ts : List Token}
    (h : ExtensionsSpelled names ts) : ∃ w rest, ts = .word w :: rest := by
  cases h <;> exact ⟨_, _, rfl⟩

/-- The names of extensions are found, up to the closing marks. -/
theorem extensions?_of_spelled {names : List String} {ts : List Token}
    (h : ExtensionsSpelled names ts) (rest : List Token) :
    extensions? (ts ++ rest) = some (names, rest) := by
  induction h with
  | last hw => simp [extensions?, hw]
  | comma hw => simp [extensions?, hw]
  | cons hw h ih =>
    -- behind the comma stands another name, not the closing mark
    obtain ⟨w', ts', rfl⟩ := h.exists_first
    simp only [List.cons_append] at ih ⊢
    simp [extensions?, hw, ih]

/-- The extensions that a text asks for are found, in front of anything that does not ask for more.
-/
theorem attributes?_of_spelled {names : List String} {ts : List Token} (h : HeaderSpelled names ts)
    {rest : List Token} (hrest : rest.head? ≠ some (.mark '#')) (fuel : Nat)
    (hfuel : ts.length ≤ fuel) : attributes? fuel (ts ++ rest) = some (names, rest) := by
  induction h generalizing fuel with
  -- what follows does not begin like a header, so no more is read of one
  | none =>
    rw [List.nil_append]
    unfold attributes?
    split
    · exact absurd rfl hrest
    · rfl
  | @enable names more ts ts' hnames hmore ih =>
    obtain ⟨fuel, rfl⟩ : ∃ n, fuel = n + 1 := ⟨fuel - 1, by simp at hfuel; omega⟩
    have hread := extensions?_of_spelled hnames (ts' ++ rest)
    have hothers := ih fuel (by simp at hfuel; omega)
    simp only [List.cons_append, List.append_assoc, attributes?, hread, hothers,
      Option.bind_eq_bind, Option.bind_some, Option.pure_def]

/-- The reader finds the document that was spelled. -/
theorem Document.ofTokens?_of_spelled {document : Document} {ts : List Token}
    (h : document.Spelled ts) : ofTokens? ts = some document := by
  obtain ⟨names, header, body, hheader, hbody, himplicit, rfl⟩ := h
  obtain ⟨implicitSome, value⟩ := document
  obtain rfl : implicitSome = _ := himplicit
  -- no datum begins with the mark of an extension
  have hfirst : body.head? ≠ some (.mark '#') := by
    cases hbody <;> simp
  have hnames := attributes?_of_spelled hheader hfirst (header ++ body).length (by simp)
  have hvalue := datum?_of_spelled hbody stops_nil (2 * body.length + 2) (by omega)
  rw [List.append_nil] at hvalue
  simp only [ofTokens?, hnames, hvalue, Option.bind_eq_bind, Option.bind_some]

end Ron
end Text
end CombatTrials
