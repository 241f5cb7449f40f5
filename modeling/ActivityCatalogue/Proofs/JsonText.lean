import ActivityCatalogue.Proofs.JsonTokens

/-!
# Written JSON is read back

The text of a value is cut into the tokens of the value (`spells_written`), and from these
the value is read (`readValue_tokens`).  So a text says which value it was written for,
for every value whatever: a text with an escape that leaves no whole text, a number of any
size, an object in which a name occurs twice (`read_pretty`).
-/

namespace ActivityCatalogue

namespace Json

open Token (Spells)

/-! ## From values to tokens -/

mutual

/-- The tokens of a value. -/
def tokens : Json → List Token
  | list items => .openList :: (Token.divided (itemTokens items) ++ [.closeList])
  | object members =>
    .openObject :: (Token.divided (memberTokens members) ++ [.closeObject])
  | value => [.atom value]

def itemTokens : List Json → List (List Token)
  | [] => []
  | item :: rest => tokens item :: itemTokens rest

def memberTokens : List (JsonText × Json) → List (List Token)
  | [] => []
  | (name, value) :: rest =>
    (.atom (.string name) :: .colon :: tokens value) :: memberTokens rest

end

mutual

/-- The text of a value is cut into the tokens of the value. -/
theorem spells_written (level : Nat) : ∀ value, Spells (written level value) (tokens value)
  | null => Token.spells_null
  | bool true => Token.spells_true
  | bool false => Token.spells_false
  | natural number => Token.spells_natural number
  | decimal negative digits scale => Token.spells_decimal level negative digits scale
  | string content => Token.spells_quoted content
  | list items =>
    Token.spells_bracketed level Token.isMark_openList Token.isMark_closeList
      (spells_writtenItems (level + 1) items)
  | object members =>
    Token.spells_bracketed level Token.isMark_openObject Token.isMark_closeObject
      (spells_writtenMembers (level + 1) members)

theorem spells_writtenItems (level : Nat) :
    ∀ items, List.Forall₂ Spells (writtenItems level items) (itemTokens items)
  | [] => .nil
  | item :: rest => .cons (spells_written level item) (spells_writtenItems level rest)

theorem spells_writtenMembers (level : Nat) :
    ∀ members, List.Forall₂ Spells (writtenMembers level members) (memberTokens members)
  | [] => .nil
  | (name, value) :: rest =>
    .cons (Token.spells_member name (spells_written level value)) (spells_writtenMembers level rest)

end

/-! ## From tokens to values -/

/-- No value starts with a closing bracket. -/
theorem exists_tokens_eq_cons (value : Json) :
    ∃ first more, tokens value = first :: more ∧ first ≠ .closeList := by
  cases value
  all_goals exact ⟨_, _, rfl, nofun⟩

theorem readItems_last {bound : Nat} {text rest : List Token} {item : Json}
    (hitem : readValue bound text = some (item, .closeList :: rest)) :
    readItems (bound + 1) text = some ([item], rest) :=
  Option.bind_eq_some_iff.mpr ⟨_, hitem, rfl⟩

theorem readItems_comma {bound : Nat} {text behind rest : List Token} {item : Json}
    {items : List Json} (hitem : readValue bound text = some (item, .comma :: behind))
    (hitems : readItems bound behind = some (items, rest)) :
    readItems (bound + 1) text = some (item :: items, rest) :=
  Option.bind_eq_some_iff.mpr ⟨_, hitem, Option.bind_eq_some_iff.mpr ⟨_, hitems, rfl⟩⟩

theorem readMembers_last {bound : Nat} {text rest : List Token} {name : JsonText} {value : Json}
    (hvalue : readValue bound text = some (value, .closeObject :: rest)) :
    readMembers (bound + 1) (.atom (.string name) :: .colon :: text) =
      some ([(name, value)], rest) :=
  Option.bind_eq_some_iff.mpr ⟨_, hvalue, rfl⟩

theorem readMembers_comma {bound : Nat} {text behind rest : List Token} {name : JsonText}
    {value : Json} {members : List (JsonText × Json)}
    (hvalue : readValue bound text = some (value, .comma :: behind))
    (hmembers : readMembers bound behind = some (members, rest)) :
    readMembers (bound + 1) (.atom (.string name) :: .colon :: text) =
      some ((name, value) :: members, rest) :=
  Option.bind_eq_some_iff.mpr ⟨_, hvalue, Option.bind_eq_some_iff.mpr ⟨_, hmembers, rfl⟩⟩

theorem readValue_list {bound : Nat} {first : Token} {text rest : List Token} {items : List Json}
    (hfirst : first ≠ .closeList)
    (hitems : readItems bound (first :: text) = some (items, rest)) :
    readValue (bound + 1) (.openList :: first :: text) = some (.list items, rest) := by
  cases first
  case closeList => exact absurd rfl hfirst
  all_goals exact Option.map_eq_some_iff.mpr ⟨_, hitems, rfl⟩

theorem readValue_object {bound : Nat} {name : JsonText} {text rest : List Token}
    {members : List (JsonText × Json)}
    (hmembers : readMembers bound (.atom (.string name) :: text) = some (members, rest)) :
    readValue (bound + 1) (.openObject :: .atom (.string name) :: text) =
      some (.object members, rest) :=
  Option.map_eq_some_iff.mpr ⟨_, hmembers, rfl⟩

theorem exists_divided_eq_cons (first : Token) (part : List Token) (parts : List (List Token)) :
    ∃ more, Token.divided ((first :: part) :: parts) = first :: more := by
  cases parts with
  | nil => exact ⟨part, Token.divided_singleton _⟩
  | cons next parts => exact ⟨_, Token.divided_cons_cons _ next parts⟩

/-! The recursion is that of the reader, on the bound.  A value with parts takes two tokens for
its brackets, and these pay for the steps into its parts. -/

mutual

/-- A value is read back from its tokens, whatever follows them. -/
theorem readValue_tokens : ∀ (bound : Nat) (value : Json) (rest : List Token),
    2 * (tokens value).length ≤ bound + 1 →
    readValue bound (tokens value ++ rest) = some (value, rest)
  | 0, value, rest, hbound => by
      obtain ⟨first, more, htokens, -⟩ := exists_tokens_eq_cons value
      rw [htokens, List.length_cons] at hbound
      omega
  | _ + 1, null, _, _ => rfl
  | _ + 1, bool _, _, _ => rfl
  | _ + 1, natural _, _, _ => rfl
  | _ + 1, decimal .., _, _ => rfl
  | _ + 1, string _, _, _ => rfl
  | _ + 1, list [], _, _ => rfl
  | bound + 1, list (item :: items), rest, hbound => by
      simp only [tokens, List.length_cons, List.length_append, List.length_nil] at hbound
      have hitems := readItems_tokens bound item items rest (by omega)
      obtain ⟨first, part, htokens, hfirst⟩ := exists_tokens_eq_cons item
      obtain ⟨text, htext⟩ := exists_divided_eq_cons first part (itemTokens items)
      rw [← htokens] at htext
      simp only [tokens, itemTokens, htext, List.cons_append, List.append_assoc,
        List.nil_append] at hitems ⊢
      exact readValue_list hfirst hitems
  | _ + 1, object [], _, _ => rfl
  | bound + 1, object ((name, value) :: members), rest, hbound => by
      simp only [tokens, List.length_cons, List.length_append, List.length_nil] at hbound
      have hmembers := readMembers_tokens bound name value members rest (by omega)
      obtain ⟨text, htext⟩ := exists_divided_eq_cons (.atom (.string name))
        (.colon :: tokens value) (memberTokens members)
      simp only [tokens, memberTokens, htext, List.cons_append, List.append_assoc,
        List.nil_append] at hmembers ⊢
      exact readValue_object hmembers

theorem readItems_tokens : ∀ (bound : Nat) (item : Json) (items : List Json) (rest : List Token),
    2 * (Token.divided (itemTokens (item :: items))).length ≤ bound →
    readItems bound (Token.divided (itemTokens (item :: items)) ++ .closeList :: rest) =
      some (item :: items, rest)
  | 0, item, items, _, hbound => by
      obtain ⟨first, part, htokens, -⟩ := exists_tokens_eq_cons item
      obtain ⟨text, htext⟩ := exists_divided_eq_cons first part (itemTokens items)
      rw [itemTokens, htokens, htext, List.length_cons] at hbound
      omega
  | bound + 1, item, [], rest, hbound => by
      simp only [itemTokens, Token.divided_singleton] at hbound ⊢
      exact readItems_last (readValue_tokens bound item _ hbound)
  | bound + 1, item, next :: items, rest, hbound => by
      have hdivided : Token.divided (itemTokens (item :: next :: items)) =
          tokens item ++ .comma :: Token.divided (itemTokens (next :: items)) :=
        Token.divided_cons_cons _ _ _
      rw [hdivided, List.length_append, List.length_cons] at hbound
      rw [hdivided, List.append_assoc]
      exact readItems_comma (readValue_tokens bound item _ (by omega))
        (readItems_tokens bound next items rest (by omega))

theorem readMembers_tokens : ∀ (bound : Nat) (name : JsonText) (value : Json)
    (members : List (JsonText × Json)) (rest : List Token),
    2 * (Token.divided (memberTokens ((name, value) :: members))).length ≤ bound →
    readMembers bound
        (Token.divided (memberTokens ((name, value) :: members)) ++ .closeObject :: rest) =
      some ((name, value) :: members, rest)
  | 0, name, value, members, _, hbound => by
      obtain ⟨text, htext⟩ := exists_divided_eq_cons (.atom (.string name))
        (.colon :: tokens value) (memberTokens members)
      rw [memberTokens, htext, List.length_cons] at hbound
      omega
  | bound + 1, name, value, [], rest, hbound => by
      have hdivided : Token.divided (memberTokens [(name, value)]) =
          .atom (.string name) :: .colon :: tokens value :=
        Token.divided_singleton _
      simp only [hdivided, List.length_cons] at hbound
      simp only [hdivided, List.cons_append]
      exact readMembers_last (readValue_tokens bound value _ (by omega))
  | bound + 1, name, value, (other, next) :: members, rest, hbound => by
      have hdivided : Token.divided (memberTokens ((name, value) :: (other, next) :: members)) =
          .atom (.string name) :: .colon :: (tokens value ++
            .comma :: Token.divided (memberTokens ((other, next) :: members))) :=
        Token.divided_cons_cons _ _ _
      simp only [hdivided, List.length_append, List.length_cons] at hbound
      simp only [hdivided, List.append_assoc, List.cons_append]
      exact readMembers_comma (readValue_tokens bound value _ (by omega))
        (readMembers_tokens bound other next members rest (by omega))

end

/-- **Main statement.**  The text of a value spells that value and nothing else. -/
theorem read_pretty (value : Json) : read value.pretty = some value := by
  have hends : Token.EndsNumber [] := fun _ hc => nomatch hc
  have hspells := spells_written 0 value [] [] hends .nil
  rw [List.append_nil, List.append_nil] at hspells
  have hall : Token.readAll value.pretty = some (tokens value) := by
    refine Token.readAll_of_cuts ?_
    rwa [pretty, String.toList_ofList]
  have hvalue := readValue_tokens (2 * (tokens value).length) value [] (Nat.le_succ _)
  rw [List.append_nil] at hvalue
  simp [read, hall, hvalue]

end Json

end ActivityCatalogue
