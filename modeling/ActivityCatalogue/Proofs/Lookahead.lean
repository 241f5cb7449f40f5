import ActivityCatalogue.Proofs.TypeReading

/-!
# The reader looks one character ahead

What the reader of type names does depends on the text that it gets past and on
the one character behind it, or the end.  Any other text that starts with both
is read alike, to the same value or the same violation (`readType_looksAhead`).

The nesting that is left does not matter either, as long as it is not used up:
a reader of more levels reads the same (`readType_deepens`).
-/

namespace ActivityCatalogue

namespace TypeName

variable {α β : Type}

/-! ## One character ahead -/

/-- The reader takes `text` for `value` in front of any text that starts like `behind`. -/
def Takes (reader : Cursor → Except Violation (α × Cursor)) (value : α) (offset : Nat)
    (text behind : List Char) : Prop :=
  ∀ rest, rest.head? = behind.head? →
    reader ⟨offset, text ++ rest⟩ = .ok (value, ⟨offset + width text, rest⟩)

/-- The reader notices the violation behind `text`, in front of any text that starts like
`behind`. -/
def Refuses (reader : Cursor → Except Violation (α × Cursor)) (violation : Violation)
    (offset : Nat) (text behind : List Char) : Prop :=
  violation.offset? = some (offset + width text) ∧
    ∀ rest, rest.head? = behind.head? → reader ⟨offset, text ++ rest⟩ = .error violation

/-- The reader has decided behind `text`, and looks no further than at the next character. -/
def Decides (reader : Cursor → Except Violation (α × Cursor)) (offset : Nat)
    (text behind : List Char) : Prop :=
  (∃ value, Takes reader value offset text behind) ∨
    ∃ violation, Refuses reader violation offset text behind

/-- Wherever it starts, the reader looks one character ahead at most. -/
def LooksAhead (reader : Cursor → Except Violation (α × Cursor)) : Prop :=
  ∀ offset whole, ∃ text behind, whole = text ++ behind ∧ Decides reader offset text behind

theorem head?_append_eq {rest behind : List Char} (hrest : rest.head? = behind.head?)
    (text : List Char) : (text ++ rest).head? = (text ++ behind).head? := by
  rw [List.head?_append, List.head?_append, hrest]

theorem Takes.bind_eq {first : Cursor → Except Violation (α × Cursor)} {value : α}
    {offset : Nat} {text more behind : List Char}
    (hfirst : Takes first value offset text (more ++ behind))
    (next : α × Cursor → Except Violation (β × Cursor)) {rest : List Char}
    (hrest : rest.head? = behind.head?) :
    first ⟨offset, text ++ more ++ rest⟩ >>= next =
      next (value, ⟨offset + width text, more ++ rest⟩) := by
  rw [List.append_assoc, hfirst _ (head?_append_eq hrest more)]
  rfl

theorem LooksAhead.bind {first : Cursor → Except Violation (α × Cursor)}
    {next : α × Cursor → Except Violation (β × Cursor)} (hfirst : LooksAhead first)
    (hnext : ∀ value, LooksAhead fun cursor => next (value, cursor)) :
    LooksAhead fun cursor => first cursor >>= next := by
  intro offset whole
  obtain ⟨text, behind, rfl, ⟨value, htakes⟩ | ⟨violation, hplace, hrefuses⟩⟩ :=
    hfirst offset whole
  · -- in front of what the second reader passes, the first one sees the same character
    obtain ⟨more, behind, rfl, hdecides⟩ := hnext value (offset + width text) behind
    refine ⟨text ++ more, behind, (List.append_assoc _ _ _).symm, ?_⟩
    rcases hdecides with ⟨result, hmore⟩ | ⟨violation, hplace, hmore⟩
    · refine Or.inl ⟨result, fun rest hrest => ?_⟩
      rw [width_append, ← Nat.add_assoc]
      exact (htakes.bind_eq next hrest).trans (hmore rest hrest)
    · refine Or.inr ⟨violation, ?_, fun rest hrest => ?_⟩
      · rw [width_append, ← Nat.add_assoc]
        exact hplace
      · exact (htakes.bind_eq next hrest).trans (hmore rest hrest)
  · refine ⟨text, behind, rfl, Or.inr ⟨violation, hplace, fun rest hrest => ?_⟩⟩
    show first ⟨offset, text ++ rest⟩ >>= next = _
    rw [hrefuses rest hrest]
    rfl

theorem looksAhead_ok (value : α) : LooksAhead fun cursor => .ok (value, cursor) :=
  fun _ whole => ⟨[], whole, rfl, Or.inl ⟨value, fun _ _ => rfl⟩⟩

/-- A reader that passes the character `c` decides where the one that it goes on with does. -/
theorem Decides.behind {reader inner : Cursor → Except Violation (α × Cursor)} {c : Char}
    {offset : Nat} {text behind : List Char}
    (hreader : ∀ rest, reader ⟨offset, c :: rest⟩ = inner ⟨offset + c.utf8Size, rest⟩)
    (hinner : Decides inner (offset + c.utf8Size) text behind) :
    Decides reader offset (c :: text) behind := by
  rcases hinner with ⟨value, htakes⟩ | ⟨violation, hplace, hrefuses⟩
  · refine Or.inl ⟨value, fun rest hrest => ?_⟩
    rw [List.cons_append, hreader, htakes rest hrest, width, Nat.add_assoc]
  · refine Or.inr ⟨violation, ?_, fun rest hrest => ?_⟩
    · rw [hplace, width, Nat.add_assoc]
    · rw [List.cons_append, hreader, hrefuses rest hrest]

theorem LooksAhead.eat {next : Cursor → Except Violation (α × Cursor)} (hnext : LooksAhead next)
    (expected : Char) {violation : Nat → Violation}
    (hviolation : ∀ place, (violation place).offset? = some place) :
    LooksAhead fun cursor => cursor.eat expected violation >>= next := by
  intro offset whole
  by_cases hhead : whole.head? = some expected
  · obtain ⟨rest, rfl⟩ := List.head?_eq_some_iff.mp hhead
    obtain ⟨text, behind, rfl, hdecides⟩ := hnext (offset + expected.utf8Size) rest
    refine ⟨expected :: text, behind, rfl, hdecides.behind fun rest => ?_⟩
    rw [Cursor.eat_cons]
    rfl
  · refine ⟨[], whole, rfl, Or.inr ⟨violation offset, hviolation offset, fun rest hrest => ?_⟩⟩
    show Cursor.eat expected violation ⟨offset, rest⟩ >>= next = _
    rw [Cursor.eat, Cursor.eat?_eq_none (hrest ▸ hhead)]
    rfl

/-! ## The parts of a type -/

theorem readName_looksAhead : LooksAhead readName := by
  intro offset whole
  cases hread : readName ⟨offset, whole⟩ with
  | error violation =>
      obtain ⟨name, before, shown, separator, behind, hname, hseparator, hbehind, hwhole, rfl⟩ :=
        readName_error NameMap.empty hread
      refine ⟨before ++ [separator], behind, ?_, Or.inr
        ⟨.nameCharMissing (offset + width before + separator.utf8Size), ?_, ?_⟩⟩
      · rw [List.append_assoc]
        exact hwhole
      · rw [width_append, ← Nat.add_assoc]
        rfl
      · intro rest hrest
        rw [List.append_assoc]
        exact readName_dangling hname hseparator ((startsSegment_eq_of_head hrest).trans hbehind)
          offset
  | ok read =>
      obtain ⟨name, next⟩ := read
      obtain ⟨text, hpasses, hname⟩ := readName_sound NameMap.empty hread
      refine ⟨text, next.rest, hpasses.rest, Or.inl ⟨name, fun rest hrest => ?_⟩⟩
      rcases readName_ends hread with hends | ⟨rfl, hstarts⟩
      · exact readName_complete hname (fun c hc => hends c (hrest ▸ hc)) offset
      · cases hname
        rw [List.nil_append, readName, startsSegment_eq_of_head hrest, hstarts]
        rfl

theorem readArity_looksAhead : LooksAhead readArity := by
  intro offset whole
  cases hread : readArity ⟨offset, whole⟩ with
  | error violation =>
      obtain ⟨rfl, hwhole⟩ := readArity_eq_error_iff.mp hread
      refine ⟨[], whole, rfl, Or.inr ⟨.nonZeroDigitMissing offset, rfl, fun rest hrest => ?_⟩⟩
      exact readArity_eq_error_iff.mpr ⟨rfl, hrest ▸ hwhole⟩
  | ok read =>
      obtain ⟨arity, next⟩ := read
      obtain ⟨digits, count, hpasses, hcount, rfl⟩ := readArity_sound hread
      have hends := readArity_ends hread
      refine ⟨digits, next.rest, hpasses.rest, Or.inl ⟨min maxArity count, ?_⟩⟩
      intro rest hrest
      exact readArity_complete hcount (fun c hc => hends c (hrest ▸ hc)) offset

theorem readArrays_looksAhead : LooksAhead fun cursor => readArrays cursor.offset cursor.rest := by
  intro offset whole
  cases hread : readArrays offset whole with
  | error violation =>
      obtain ⟨count, behind, rfl, hbehind, rfl⟩ := readArrays_error hread
      refine ⟨brackets count ++ ['['], behind, ?_, Or.inr
        ⟨.closingBracketMissing (offset + width (brackets count) + 1), ?_, ?_⟩⟩
      · rw [List.append_assoc]
        rfl
      · rw [width_append, ← Nat.add_assoc]
        rfl
      · intro rest hrest
        rw [List.append_assoc]
        exact readArrays_unclosed count (hrest ▸ hbehind) offset
  | ok read =>
      obtain ⟨count, next⟩ := read
      have hpasses := readArrays_sound hread
      have hhead := readArrays_head hread
      refine ⟨brackets count, next.rest, hpasses.rest, Or.inl ⟨count, fun rest hrest => ?_⟩⟩
      exact readArrays_complete count (hrest ▸ hhead) offset

theorem readArguments_looksAhead {argument : TypeReader} (hargument : LooksAhead argument)
    (further : Nat) : LooksAhead (readArguments argument further) := by
  induction further with
  | zero => exact hargument.bind fun type => looksAhead_ok [type]
  | succ further ih =>
      refine hargument.bind fun type => LooksAhead.eat ?_ ',' fun _ => rfl
      exact ih.bind fun types => looksAhead_ok (type :: types)

/-- The template part behind its backtick. -/
def readTemplateBody (argument : TypeReader) (cursor : Cursor) :
    Except Violation (List TypeName × Cursor) := do
  let (arity, behindArity) ← readArity cursor
  let opened ← behindArity.eat '<' .lessThanMissing
  let (types, last) ← readArguments argument (arity - 1) opened
  return (types, ← last.eat '>' .greaterThanMissing)

theorem readTemplate_looksAhead {argument : TypeReader} (hargument : LooksAhead argument) :
    LooksAhead (readTemplate argument) := by
  intro offset whole
  have hbody : LooksAhead (readTemplateBody argument) := by
    refine readArity_looksAhead.bind fun arity => LooksAhead.eat ?_ '<' fun _ => rfl
    refine (readArguments_looksAhead hargument (arity - 1)).bind fun types => ?_
    exact LooksAhead.eat (looksAhead_ok types) '>' fun _ => rfl
  by_cases hhead : whole.head? = some (Char.ofNat 0x60)
  · obtain ⟨rest, rfl⟩ := List.head?_eq_some_iff.mp hhead
    obtain ⟨text, behind, rfl, hdecides⟩ := hbody (offset + (Char.ofNat 0x60).utf8Size) rest
    refine ⟨Char.ofNat 0x60 :: text, behind, rfl, hdecides.behind fun rest => ?_⟩
    rw [readTemplate, Cursor.eat?_cons]
    rfl
  · refine ⟨[], whole, rfl, Or.inl ⟨[], fun rest hrest => ?_⟩⟩
    rw [List.nil_append, readTemplate, Cursor.eat?_eq_none (hrest ▸ hhead)]
    rfl

theorem readTypeWith_looksAhead {argument : TypeReader} (hargument : LooksAhead argument) :
    LooksAhead (readTypeWith argument) := by
  refine readName_looksAhead.bind fun name => ?_
  refine (readTemplate_looksAhead hargument).bind fun arguments => ?_
  exact readArrays_looksAhead.bind fun arrays => looksAhead_ok (mk name arguments arrays)

/-- Nothing is passed for an empty type. -/
theorem readTypeWith_isEmpty {argument : TypeReader} {cursor next : Cursor} {type : TypeName}
    (hread : readTypeWith argument cursor = .ok (type, next)) (hempty : type.isEmpty = true) :
    next = cursor := by
  obtain ⟨⟨name, behindName⟩, hname, hread⟩ := bind_eq_ok_iff.mp hread
  obtain ⟨⟨arguments, behindTemplate⟩, htemplate, hread⟩ := bind_eq_ok_iff.mp hread
  obtain ⟨⟨arrays, last⟩, harrays, hread⟩ := bind_eq_ok_iff.mp hread
  cases hread
  rw [isEmpty, Bool.and_eq_true, Bool.and_eq_true, beq_iff_eq] at hempty
  obtain ⟨⟨hnone, hplain⟩, rfl⟩ := hempty
  obtain ⟨text, hnamePasses, hname⟩ := readName_sound NameMap.empty hname
  obtain rfl := hname.isNone_iff.mp hnone
  obtain rfl := hnamePasses.eq_of_nil
  obtain rfl := (readTemplate_head htemplate).1 (List.isEmpty_iff.mp hplain)
  exact (readArrays_sound harrays).eq_of_nil

theorem readArgumentWith_looksAhead {reader : TypeReader} (hreader : LooksAhead reader)
    (hempty : ∀ cursor type next, reader cursor = .ok (type, next) → type.isEmpty = true →
      next = cursor) : LooksAhead (readArgumentWith reader) := by
  intro offset whole
  obtain ⟨text, behind, rfl, ⟨type, htakes⟩ | ⟨violation, hplace, hrefuses⟩⟩ :=
    hreader offset whole
  · refine ⟨text, behind, rfl, ?_⟩
    by_cases htype : type.isEmpty = true
    · -- the violation is told at the start, and that is where the reader stands
      have hnothing := congrArg Cursor.rest (hempty _ _ _ (htakes behind rfl) htype)
      obtain rfl : text = [] := List.self_eq_append_left.mp hnothing
      refine Or.inr ⟨.templateTypeMissing offset, rfl, fun rest hrest => ?_⟩
      rw [readArgumentWith, htakes rest hrest]
      exact if_pos htype
    · refine Or.inl ⟨type, fun rest hrest => ?_⟩
      rw [readArgumentWith, htakes rest hrest]
      exact if_neg htype
  · refine ⟨text, behind, rfl, Or.inr ⟨violation, hplace, fun rest hrest => ?_⟩⟩
    rw [readArgumentWith, hrefuses rest hrest]
    rfl

theorem readType_looksAhead (levels : Nat) : LooksAhead (readType levels) := by
  induction levels with
  | zero =>
      refine readTypeWith_looksAhead fun offset whole => ⟨[], whole, rfl, Or.inr ?_⟩
      exact ⟨.tooDeep offset, rfl, fun _ _ => rfl⟩
  | succ levels ih =>
      obtain ⟨argument, hargument⟩ := exists_readType_eq levels
      refine readTypeWith_looksAhead (readArgumentWith_looksAhead ih ?_)
      rw [hargument]
      exact fun _ _ _ => readTypeWith_isEmpty

/-! ## Levels that are not reached -/

/-- Where the first reading is not stopped by the nesting, the second one is the same. -/
def Deepens (shallow deep : Except Violation α) : Prop :=
  (∃ place, shallow = .error (.tooDeep place)) ∨ deep = shallow

theorem Deepens.bind {shallow deep : Except Violation α}
    {shallowNext deepNext : α → Except Violation β} (hfirst : Deepens shallow deep)
    (hnext : ∀ value, Deepens (shallowNext value) (deepNext value)) :
    Deepens (shallow >>= shallowNext) (deep >>= deepNext) := by
  rcases hfirst with ⟨place, rfl⟩ | rfl
  · exact Or.inl ⟨place, rfl⟩
  · cases deep with
    | error violation => exact Or.inr rfl
    | ok value => exact hnext value

theorem Deepens.refl (result : Except Violation α) : Deepens result result := Or.inr rfl

theorem readArguments_deepens {shallow deep : TypeReader}
    (hargument : ∀ cursor, Deepens (shallow cursor) (deep cursor)) (further : Nat)
    (cursor : Cursor) :
    Deepens (readArguments shallow further cursor) (readArguments deep further cursor) := by
  induction further generalizing cursor with
  | zero => exact (hargument cursor).bind fun _ => .refl _
  | succ further ih =>
      refine (hargument cursor).bind fun read => (Deepens.refl _).bind fun behind => ?_
      exact (ih behind).bind fun _ => .refl _

theorem readTypeWith_deepens {shallow deep : TypeReader}
    (hargument : ∀ cursor, Deepens (shallow cursor) (deep cursor)) (cursor : Cursor) :
    Deepens (readTypeWith shallow cursor) (readTypeWith deep cursor) := by
  refine (Deepens.refl _).bind fun (name, behindName) => Deepens.bind ?_ fun _ => .refl _
  show Deepens (readTemplate shallow behindName) (readTemplate deep behindName)
  rw [readTemplate, readTemplate]
  cases behindName.eat? (Char.ofNat 0x60) with
  | none => exact .refl _
  | some behindMark =>
      refine (Deepens.refl _).bind fun arity => (Deepens.refl _).bind fun opened => ?_
      exact (readArguments_deepens hargument _ opened).bind fun _ => .refl _

/-- A reader of more levels reads the same as long as the levels are not used up. -/
theorem readType_deepens (levels more : Nat) (cursor : Cursor) :
    Deepens (readType levels cursor) (readType (levels + more) cursor) := by
  induction levels generalizing cursor with
  | zero =>
      obtain ⟨argument, hargument⟩ := exists_readType_eq (0 + more)
      rw [hargument]
      exact readTypeWith_deepens (fun place => Or.inl ⟨place.offset, rfl⟩) cursor
  | succ levels ih =>
      rw [Nat.succ_add]
      exact readTypeWith_deepens (fun place => (ih place).bind fun _ => .refl _) cursor

end TypeName

end ActivityCatalogue
