import ActivityCatalogue.Proofs.Lookahead
import ActivityCatalogue.Proofs.OpenBrackets

/-!
# The first violation of the grammar

A text is viable if it can be continued to a type.  Where the reader stops at a
violation, the text before is viable: for each of the parts that it was about to
read there is one that fits (`readType_stops`).  What stands behind makes the
text inviable with its first character, since the reader that has seen it stops
at the same place whatever else follows (`blocks_of_refuses`), and a text
that goes on to a type is read to its end.

Only the nesting is different.  A text that nests too deep is viable as it is,
and what is wrong with it is the number of brackets that it leaves open.
-/

namespace ActivityCatalogue

namespace TypeName

variable {namespaces : NameSet}

/-! ## Filling up -/

theorem isArity_one : IsArity ['1'] 1 :=
  ⟨List.cons_ne_nil _ _, List.forall_mem_singleton.mpr (by decide), by decide, by decide⟩

theorem isSegment_letter : IsSegment ['A'] := ⟨'A', [], rfl, by decide, nofun⟩

theorem derives_letter (namespaces : NameSet) :
    Derives namespaces (mk (some ⟨['A'], []⟩) [] 0) ['A'] ['A'] :=
  .type (.present (.segment isSegment_letter)) .absent

theorem derives_of_template {name : Option QualifiedName} {arguments : List TypeName}
    {nameText nameShown templateText templateShown : List Char}
    (hname : DerivesNamePart namespaces name nameText nameShown)
    (htemplate : DerivesTemplate namespaces arguments templateText templateShown) :
    Derives namespaces (mk name arguments 0) (nameText ++ templateText)
      (nameShown ++ templateShown) := by
  have htype : Derives namespaces (mk name arguments 0) _ _ := .type hname htemplate
  rwa [show brackets 0 = [] from rfl, List.append_nil, List.append_nil] at htype

/-- There are arguments, as many as asked for. -/
theorem exists_arguments (namespaces : NameSet) {count : Nat} (hcount : 0 < count) :
    ∃ types text shown, types.length = count ∧ DerivesArguments namespaces types text shown := by
  induction count with
  | zero => exact absurd hcount (Nat.lt_irrefl 0)
  | succ count ih =>
      have hletter := derives_letter namespaces
      rcases Nat.eq_zero_or_pos count with rfl | hpos
      · exact ⟨_, _, _, rfl, .last hletter (List.cons_ne_nil _ _)⟩
      · obtain ⟨types, text, shown, rfl, htypes⟩ := ih hpos
        exact ⟨_, _, _, rfl, .more hletter (List.cons_ne_nil _ _) htypes⟩

/-- Arguments can be continued to any greater number of them. -/
theorem DerivesArguments.extend {types : List TypeName} {text shown : List Char}
    (htypes : DerivesArguments namespaces types text shown) {count : Nat}
    (hcount : types.length ≤ count) :
    ∃ more all allShown, all.length = count ∧
      DerivesArguments namespaces all (text ++ more) allShown := by
  induction types generalizing text shown count with
  | nil => exact absurd rfl htypes.ne_nil
  | cons type types ih =>
      cases htypes with
      | last htype hnonempty =>
          rcases hcount.eq_or_lt with rfl | hmore
          · exact ⟨[], _, _, rfl, by rw [List.append_nil]; exact .last htype hnonempty⟩
          · have hpos : 0 < count - 1 := Nat.sub_pos_of_lt hmore
            obtain ⟨others, behind, behindShown, hothers, hbehind⟩ :=
              exists_arguments namespaces hpos
            refine ⟨',' :: behind, _, _, ?_, .more htype hnonempty hbehind⟩
            rw [List.length_cons, hothers]
            omega
      | @more _ _ text _ rest _ htype hnonempty hrest =>
          rw [List.length_cons] at hcount
          obtain ⟨more, all, allShown, hall, hderives⟩ := ih hrest (Nat.le_sub_one_of_lt hcount)
          have hderives := DerivesArguments.more htype hnonempty hderives
          rw [← List.cons_append, ← List.append_assoc] at hderives
          refine ⟨more, type :: all, _, ?_, hderives⟩
          rw [List.length_cons, hall]
          omega

/-- What can be continued to a type can be continued to any number of arguments. -/
theorem exists_arguments_of_derives {type : TypeName} {text more shown : List Char}
    (hnonempty : text ++ more ≠ []) (htype : Derives namespaces type (text ++ more) shown)
    {count : Nat} (hcount : 0 < count) :
    ∃ behind types typesShown, types.length = count ∧
      DerivesArguments namespaces types (text ++ behind) typesShown := by
  obtain ⟨others, types, typesShown, htypes, hderives⟩ :=
    (DerivesArguments.last htype hnonempty).extend (Nat.succ_le_of_lt hcount)
  rw [List.append_assoc] at hderives
  exact ⟨more ++ others, types, typesShown, htypes, hderives⟩

/-! ## Where a reader stops -/

/-- The violation was noticed behind `text`, which opens all the levels if it nests too deep. -/
structure Cursor.StopsBehind (cursor : Cursor) (text : List Char) (violation : Violation)
    (levels : Nat) : Prop where
  before : text <+: cursor.rest
  place : violation.offset? = some (cursor.offset + width text)
  tooDeep : ∀ place, violation = .tooDeep place → Reaches levels text

theorem Cursor.Passes.stopsBehind {cursor next : Cursor} {text : List Char}
    (hpasses : cursor.Passes text next) {violation : Violation}
    (hplace : violation.offset? = some next.offset)
    (hshallow : ∀ place, violation ≠ .tooDeep place) (levels : Nat) :
    cursor.StopsBehind text violation levels where
  before := ⟨next.rest, hpasses.rest.symm⟩
  place := by rw [hplace, hpasses.offset]
  tooDeep := fun place hdeep => absurd hdeep (hshallow place)

theorem Cursor.StopsBehind.behind {cursor next : Cursor} {before text : List Char}
    {violation : Violation} {levels inner : Nat} (hstops : next.StopsBehind text violation levels)
    (hpasses : cursor.Passes before next) (hbefore : Balanced inner before)
    (hinner : inner < levels) : cursor.StopsBehind (before ++ text) violation levels where
  before := by
    rw [hpasses.rest]
    exact (List.prefix_append_right_inj before).mpr hstops.before
  place := by rw [hstops.place, hpasses.offset, width_append, Nat.add_assoc]
  tooDeep := fun place hdeep => (hstops.tooDeep place hdeep).behind hbefore hinner

theorem Cursor.StopsBehind.opening {cursor next : Cursor} {text : List Char} {violation : Violation}
    {levels : Nat} (hstops : next.StopsBehind text violation levels)
    (hpasses : cursor.Passes ['<'] next) :
    cursor.StopsBehind ('<' :: text) violation (levels + 1) where
  before := by
    rw [hpasses.rest]
    exact (List.prefix_append_right_inj ['<']).mpr hstops.before
  place := by rw [hstops.place, hpasses.offset, Nat.add_assoc, ← width_append]; rfl
  tooDeep := fun place hdeep => (hstops.tooDeep place hdeep).opening

theorem Cursor.eat_error {expected : Char} {violation : Nat → Violation} {cursor : Cursor}
    {noticed : Violation} (heat : cursor.eat expected violation = .error noticed) :
    noticed = violation cursor.offset := by
  rw [eat] at heat
  cases hnext : cursor.eat? expected with
  | some next =>
      rw [hnext] at heat
      cases heat
  | none =>
      rw [hnext] at heat
      exact (Except.error.inj heat).symm

/-- A reader that stops does so behind the start of a type, and of one that is not empty. -/
def StopsViable (namespaces : NameSet) (levels : Nat) (reader : TypeReader) : Prop :=
  ∀ cursor violation, reader cursor = .error violation → cursor.rest.length ≤ maxArity →
    ∃ text, cursor.StopsBehind text violation levels ∧
      ∃ more type shown, text ++ more ≠ [] ∧ Derives namespaces type (text ++ more) shown

/-- Arguments can be continued from where their reader stops, to any number that it asks for. -/
theorem readArguments_stops {levels : Nat} {argument : TypeReader}
    (hsound : SoundArgument namespaces levels argument)
    (hargument : StopsViable namespaces levels argument) {further : Nat} {cursor : Cursor}
    {violation : Violation} (hread : readArguments argument further cursor = .error violation)
    (hlength : cursor.rest.length ≤ maxArity) :
    ∃ text, cursor.StopsBehind text violation levels ∧ ∀ count, further < count →
      ∃ more types shown, types.length = count ∧
        DerivesArguments namespaces types (text ++ more) shown := by
  induction further generalizing cursor with
  | zero =>
      rcases bind_eq_error_iff.mp hread with herror | ⟨_, _, hread⟩
      · obtain ⟨text, hstops, more, type, shown, hnonempty, htype⟩ := hargument _ _ herror hlength
        exact ⟨text, hstops, fun count hcount => exists_arguments_of_derives hnonempty htype hcount⟩
      · exact nomatch hread
  | succ further ih =>
      rcases bind_eq_error_iff.mp hread with herror | ⟨⟨type, behind⟩, hfirst, hread⟩
      · obtain ⟨text, hstops, more, type, shown, hnonempty, htype⟩ := hargument _ _ herror hlength
        refine ⟨text, hstops, fun count hcount => ?_⟩
        exact exists_arguments_of_derives hnonempty htype (Nat.zero_lt_of_lt hcount)
      obtain ⟨text, shown, hpasses, hnonempty, htype, hnesting⟩ := hsound _ _ _ hfirst hlength
      rcases bind_eq_error_iff.mp hread with herror | ⟨opened, hcomma, hread⟩
      · -- a comma and further arguments may follow
        obtain rfl := Cursor.eat_error herror
        refine ⟨text, hpasses.stopsBehind rfl (by simp) levels, fun count hcount => ?_⟩
        exact (DerivesArguments.last htype hnonempty).extend (Nat.one_le_of_lt hcount)
      have hcomma := Cursor.eat_eq_ok_iff.mp hcomma
      have hshorter : opened.rest.length ≤ maxArity := by
        have hbehind := hpasses.length_le
        have hopened := hcomma.length_le
        omega
      rcases bind_eq_error_iff.mp hread with herror | ⟨_, _, hread⟩
      · -- the first argument opens no bracket that it does not close
        obtain ⟨others, hstops, hfill⟩ := ih herror hshorter
        have hbalanced : Balanced type.nesting (text ++ [',']) :=
          htype.balanced.append (balanced_singleton _ (by decide))
        refine ⟨text ++ [','] ++ others, hstops.behind (hpasses.trans hcomma) hbalanced hnesting,
          fun count hcount => ?_⟩
        obtain ⟨more, types, typesShown, htypes, hderives⟩ :=
          hfill (count - 1) (Nat.lt_sub_of_add_lt hcount)
        have hderives := DerivesArguments.more htype hnonempty hderives
        refine ⟨more, type :: types, _, ?_, by simpa using hderives⟩
        rw [List.length_cons, htypes]
        omega
      · exact nomatch hread

/-- The template part whose arguments start with `inner`. -/
theorem exists_template {digits more shown : List Char} {types : List TypeName}
    (harity : IsArity digits types.length) (inner : List Char)
    (htypes : DerivesArguments namespaces types (inner ++ more) shown) :
    ∃ behind arguments templateShown, DerivesTemplate namespaces arguments
      ([Char.ofNat 0x60] ++ digits ++ '<' :: inner ++ behind) templateShown := by
  have htemplate := DerivesTemplate.present harity htypes
  refine ⟨more ++ ['>'], types, '<' :: shown ++ ['>'], ?_⟩
  simpa using htemplate

/-- What stands behind the announced arity does not matter for its viability. -/
theorem exists_template_of_isArity (namespaces : NameSet) {digits : List Char} {count : Nat}
    (harity : IsArity digits count) :
    ∃ behind arguments templateShown, DerivesTemplate namespaces arguments
      ([Char.ofNat 0x60] ++ digits ++ behind) templateShown := by
  obtain ⟨types, text, shown, rfl, htypes⟩ := exists_arguments namespaces harity.pos
  obtain ⟨behind, arguments, templateShown, htemplate⟩ :=
    exists_template harity [] htypes
  exact ⟨'<' :: behind, arguments, templateShown, by simpa using htemplate⟩

theorem readTemplate_stops {levels : Nat} {argument : TypeReader}
    (hsound : SoundArgument namespaces levels argument)
    (hargument : StopsViable namespaces levels argument) {cursor : Cursor}
    {violation : Violation} (hread : readTemplate argument cursor = .error violation)
    (hlength : cursor.rest.length ≤ maxArity) :
    ∃ text, cursor.StopsBehind text violation (levels + 1) ∧ text ≠ [] ∧
      ∃ more arguments shown, DerivesTemplate namespaces arguments (text ++ more) shown := by
  rw [readTemplate] at hread
  cases hmark : cursor.eat? (Char.ofNat 0x60) with
  | none =>
      rw [hmark] at hread
      cases hread
  | some behindMark =>
      rw [hmark] at hread
      have hpassedMark := Cursor.eat?_eq_some_iff.mp hmark
      rcases bind_eq_error_iff.mp hread with herror | ⟨⟨arity, behindArity⟩, harity, hread⟩
      · -- behind the backtick any arity may follow, one as well
        obtain ⟨rfl, -⟩ := readArity_eq_error_iff.mp herror
        refine ⟨_, hpassedMark.stopsBehind rfl (by simp) _, List.cons_ne_nil _ _, ?_⟩
        obtain ⟨behind, arguments, shown, htemplate⟩ :=
          exists_template_of_isArity namespaces isArity_one
        exact ⟨'1' :: behind, arguments, shown, htemplate⟩
      obtain ⟨digits, count, hdigits, hcount, rfl⟩ := readArity_sound harity
      have hpassed := hpassedMark.trans hdigits
      rcases bind_eq_error_iff.mp hread with herror | ⟨opened, hopen, hread⟩
      · -- behind the arity as many arguments may follow
        obtain rfl := Cursor.eat_error herror
        exact ⟨_, hpassed.stopsBehind rfl (by simp) _, List.cons_ne_nil _ _,
          exists_template_of_isArity namespaces hcount⟩
      have hopened := Cursor.eat_eq_ok_iff.mp hopen
      have hshorter : opened.rest.length ≤ maxArity := by
        have hbehind := hpassed.length_le
        have hinner := hopened.length_le
        omega
      -- no more arguments are asked for than are announced
      have hpos := hcount.pos
      have hasked : min maxArity count - 1 < count := by omega
      rcases bind_eq_error_iff.mp hread with herror | ⟨⟨types, last⟩, htypes, hread⟩
      · obtain ⟨inner, hstops, hfill⟩ := readArguments_stops hsound hargument herror hshorter
        obtain ⟨more, types, shown, rfl, hderives⟩ := hfill count hasked
        have hbalanced : Balanced 0 ([Char.ofNat 0x60] ++ digits) :=
          (balanced_singleton 0 (by decide)).append (hcount.balanced 0)
        exact ⟨_, (hstops.opening hopened).behind hpassed hbalanced (Nat.succ_pos levels),
          List.cons_ne_nil _ _, exists_template hcount _ hderives⟩
      rcases bind_eq_error_iff.mp hread with herror | ⟨_, _, hread⟩
      · -- those that were read may be followed by the rest of what is announced, and be closed
        obtain rfl := Cursor.eat_error herror
        obtain ⟨hlengths, -, inner, shown, hpasses, hderives⟩ :=
          readArguments_sound hsound htypes hshorter
        have hfew : types.length ≤ count := by omega
        obtain ⟨more, all, allShown, rfl, hall⟩ := hderives.extend hfew
        exact ⟨_, (hpassed.trans (hopened.trans hpasses)).stopsBehind rfl (by simp) _,
          List.cons_ne_nil _ _, exists_template hcount _ hall⟩
      · cases hread

theorem readTypeWith_stops {levels : Nat} {argument : TypeReader}
    (hsound : SoundArgument namespaces levels argument)
    (hargument : StopsViable namespaces levels argument) :
    StopsViable namespaces (levels + 1) (readTypeWith argument) := by
  intro cursor violation hread hlength
  rcases bind_eq_error_iff.mp hread with herror | ⟨⟨name, behindName⟩, hname, hread⟩
  · -- a segment fits behind the separator
    obtain ⟨name, before, shown, separator, rest, hname, hseparator, -, hrest, rfl⟩ :=
      readName_error namespaces herror
    have hqualified := hname.qualified (isSeparator_iff.mp hseparator) isSegment_letter
    have htype := derives_of_template (.present hqualified) .absent
    rw [List.append_nil, List.append_nil, List.append_cons before separator] at htype
    have hpasses : cursor.Passes (before ++ [separator])
        ⟨cursor.offset + width before + separator.utf8Size, rest⟩ :=
      ⟨by rw [hrest, List.append_cons], by rw [width_append, ← Nat.add_assoc]; rfl⟩
    exact ⟨_, hpasses.stopsBehind rfl (by simp) _, ['A'], _, _, by simp, htype⟩
  obtain ⟨nameText, hnamePasses, hname⟩ := readName_sound namespaces hname
  have hbehindName := hnamePasses.length_le
  rcases bind_eq_error_iff.mp hread with herror | ⟨⟨arguments, behindTemplate⟩, htemplate, hread⟩
  · obtain ⟨text, hstops, hnonempty, more, arguments, shown, htemplate⟩ :=
      readTemplate_stops hsound hargument herror (by omega)
    have htype := derives_of_template hname htemplate
    rw [← List.append_assoc] at htype
    exact ⟨_, hstops.behind hnamePasses (hname.balanced 0) (Nat.succ_pos levels), more, _, _,
      by simp [hnonempty], htype⟩
  obtain ⟨-, templateText, shown, htemplatePasses, htemplate⟩ :=
    readTemplate_sound hsound htemplate (by omega)
  rcases bind_eq_error_iff.mp hread with herror | ⟨_, _, hread⟩
  · -- one bracket more closes the pair
    obtain ⟨arrays, rest, hrest, -, rfl⟩ := readArrays_error herror
    have htype : Derives namespaces (mk name arguments (arrays + 1)) _ _ := .type hname htemplate
    rw [brackets_concat, List.append_cons, ← List.append_assoc] at htype
    have hpasses : behindTemplate.Passes (brackets arrays ++ ['['])
        ⟨behindTemplate.offset + width (brackets arrays) + 1, rest⟩ :=
      ⟨by rw [hrest, List.append_cons], by rw [width_append, ← Nat.add_assoc]; rfl⟩
    have hwhole := (hnamePasses.trans htemplatePasses).trans hpasses
    exact ⟨_, hwhole.stopsBehind rfl (by simp) _, [']'], _, _, by simp, htype⟩
  · exact nomatch hread

theorem readArgumentWith_stops {levels : Nat} {reader : TypeReader}
    (hreader : StopsViable namespaces levels reader) :
    StopsViable namespaces levels (readArgumentWith reader) := by
  intro cursor violation hread hlength
  rcases bind_eq_error_iff.mp hread with herror | ⟨⟨type, behind⟩, _, hread⟩
  · exact hreader cursor violation herror hlength
  · dsimp only at hread
    split_ifs at hread
    cases hread
    refine ⟨[], cursor.passes_nil.stopsBehind rfl (by simp) levels, ['A'], _, _, ?_,
      derives_letter namespaces⟩
    exact List.cons_ne_nil _ _

/-- Where a type is not read, it could have gone on, and it opens all the levels if it nests too
deep. -/
theorem readType_stops (levels : Nat) : StopsViable namespaces (levels + 1) (readType levels) := by
  induction levels with
  | zero =>
      refine readTypeWith_stops (fun _ _ _ hread _ => nomatch hread) ?_
      intro cursor violation hread _
      cases hread
      refine ⟨[], ⟨List.nil_prefix, rfl, fun _ _ => reaches_nil⟩, ['A'], _, _, ?_,
        derives_letter namespaces⟩
      exact List.cons_ne_nil _ _
  | succ levels ih =>
      exact readTypeWith_stops (readArgumentWith_sound (readType_sound levels))
        (readArgumentWith_stops ih)

/-! ## What cannot go on -/

/-- Some continuation of the text is a type, however deep that nests. -/
def Viable (namespaces : NameSet) (text : List Char) : Prop :=
  ∃ more type shown, Derives namespaces type (text ++ more) shown

theorem Viable.of_longer {first second : List Char} (hsecond : Viable namespaces second)
    (hstart : first <+: second) : Viable namespaces first := by
  obtain ⟨between, rfl⟩ := hstart
  obtain ⟨more, type, shown, htype⟩ := hsecond
  rw [List.append_assoc] at htype
  exact ⟨between ++ more, type, shown, htype⟩

/-- Nothing that starts like `after` continues `before` to a type. -/
def Blocks (namespaces : NameSet) (before after : List Char) : Prop :=
  ∀ more type shown, more.head? = after.head? → ¬Derives namespaces type (before ++ more) shown

/-- A type is read to its end by a reader that goes deep enough, and one that goes less deep does
the same up to where its levels are used up. -/
theorem exists_reads_of_derives (levels : Nat) {type : TypeName} {text shown : List Char}
    (htype : Derives namespaces type text shown) :
    ∃ result, Deepens (readType levels ⟨0, text⟩) result ∧ Reads result type 0 text [] := by
  have hread := readType_complete (levels + type.nesting) _ _ _ htype (Nat.le_add_left _ _) []
    nofun 0
  rw [List.append_nil] at hread
  exact ⟨_, readType_deepens levels type.nesting ⟨0, text⟩, hread⟩

/-- What was refused behind `before` is refused there by a reader of any depth. -/
theorem blocks_of_refuses (namespaces : NameSet) {levels : Nat} {violation : Violation}
    {before after : List Char} (hrefuses : Refuses (readType levels) violation 0 before after)
    (hshallow : ∀ place, violation ≠ .tooDeep place) (hwidth : width before ≤ maxArity) :
    Blocks namespaces before after := by
  intro more type shown hmore htype
  obtain ⟨hplace, hrefuses⟩ := hrefuses
  obtain ⟨result, hdeepens, hreads⟩ := exists_reads_of_derives levels htype
  rw [hrefuses more hmore] at hdeepens
  rcases hdeepens with ⟨place, hdeep⟩ | rfl
  · exact hshallow place (Except.error.inj hdeep)
  · rcases hreads with hread | ⟨-, place, hfar, hread⟩
    · exact nomatch hread
    · -- the reader overruns only where it has passed more than `before`
      obtain rfl := Except.error.inj hread
      have hplace : place = 0 + width before := Option.some.inj hplace
      omega

/-- A type that was taken in front of some character does not go on with it. -/
theorem blocks_of_takes (namespaces : NameSet) {levels : Nat} {taken : TypeName}
    {before after : List Char} (htakes : Takes (readType levels) taken 0 before after)
    (hafter : after ≠ []) : Blocks namespaces before after := by
  intro more type shown hmore htype
  obtain ⟨result, hdeepens, hreads⟩ := exists_reads_of_derives levels htype
  rw [htakes more hmore] at hdeepens
  rcases hdeepens with ⟨place, hdeep⟩ | rfl
  · exact nomatch hdeep
  · rcases hreads with hread | ⟨-, place, -, hread⟩
    · -- the whole text was read, so nothing is left
      have hnothing : more = [] := congrArg (fun read => read.2.rest) (Except.ok.inj hread)
      rw [hnothing] at hmore
      exact hafter (List.head?_eq_none_iff.mp hmore.symm)
    · exact nomatch hread

/-- A text that is blocked is no type at its end, and cannot go on anywhere else. -/
theorem Blocks.end_or_next {before after : List Char} (hblocks : Blocks namespaces before after) :
    (after = [] ∧ ¬∃ type shown, Derives namespaces type (before ++ after) shown) ∨
      ∃ c rest, after = c :: rest ∧ ¬Viable namespaces (before ++ [c]) := by
  cases after with
  | nil =>
      refine Or.inl ⟨rfl, ?_⟩
      rintro ⟨type, shown, htype⟩
      exact hblocks [] type shown rfl htype
  | cons c rest =>
      refine Or.inr ⟨c, rest, rfl, ?_⟩
      rintro ⟨more, type, shown, htype⟩
      rw [List.append_assoc] at htype
      exact hblocks (c :: more) type shown rfl htype

/-- No longer start of a text that is blocked is viable. -/
theorem Blocks.longest {before after longer : List Char} (hblocks : Blocks namespaces before after)
    (hlonger : longer <+: before ++ after) (hviable : Viable namespaces longer) :
    longer <+: before := by
  rcases List.prefix_or_prefix_of_prefix hlonger (List.prefix_append before after) with
    hstart | ⟨more, rfl⟩
  · exact hstart
  · have hmore := (List.prefix_append_right_inj before).mp hlonger
    rcases hblocks.end_or_next with ⟨rfl, -⟩ | ⟨c, rest, rfl, hnext⟩
    · rw [List.prefix_nil.mp hmore, List.append_nil]
    · rcases List.prefix_cons_iff.mp hmore with rfl | ⟨tail, rfl, -⟩
      · rw [List.append_nil]
      · refine absurd (hviable.of_longer ?_) hnext
        exact ⟨tail, (List.append_cons before c tail).symm⟩

/-- Two starts of a text that take as many bytes are the same. -/
theorem eq_of_width_eq {first second whole : List Char} (hfirst : first <+: whole)
    (hsecond : second <+: whole) (hwidth : width first = width second) : first = second := by
  have hshorter : ∀ {shorter longer : List Char}, shorter <+: longer →
      width shorter = width longer → shorter = longer := by
    rintro shorter _ ⟨rest, rfl⟩ hequal
    rw [width_append] at hequal
    have hrest := length_le_width rest
    obtain rfl : rest = [] := List.eq_nil_of_length_eq_zero (by omega)
    rw [List.append_nil]
  rcases List.prefix_or_prefix_of_prefix hfirst hsecond with hstart | hstart
  · exact hshorter hstart hwidth
  · exact (hshorter hstart hwidth.symm).symm

/-! ## Whole texts -/

/-- The byte up to which a text was read: that of the violation, or the one where the extra
contents begin. -/
def Violation.stop? (text : String) : Violation → Option Nat
  | extraContents rest => some (text.utf8ByteSize - rest.utf8ByteSize)
  | violation => violation.offset?

theorem Violation.stop?_of_offset? {violation : Violation} {place : Nat}
    (hplace : violation.offset? = some place) (text : String) :
    violation.stop? text = some place := by
  cases violation with
  | extraContents rest => exact nomatch hplace
  | _ => exact hplace

theorem width_add_width {text : String} {before after : List Char}
    (hsplit : text.toList = before ++ after) : width before + width after = text.utf8ByteSize := by
  rw [← width_append, ← hsplit, width_toList]

/-- Extra contents begin where the text in front of them ends. -/
theorem Violation.stop?_extraContents {text : String} {before after : List Char}
    (hsplit : text.toList = before ++ after) :
    (extraContents (String.ofList after)).stop? text = some (width before) := by
  have hafter := width_toList (String.ofList after)
  rw [String.toList_ofList] at hafter
  have hwhole := width_add_width hsplit
  rw [stop?, ← hafter, ← hwhole, Nat.add_sub_cancel]

theorem read_eq_error {text : String} {violation : Violation}
    (hread : read text = .error violation) :
    readType maxNesting (.start text) = .error violation ∨
      ∃ type last, readType maxNesting (.start text) = .ok (type, last) ∧ last.rest ≠ [] ∧
        violation = .extraContents (String.ofList last.rest) := by
  rcases bind_eq_error_iff.mp hread with herror | ⟨⟨type, last⟩, hok, hread⟩
  · exact Or.inl herror
  · refine Or.inr ⟨type, last, hok, ?_⟩
    dsimp only at hread
    split at hread
    · exact nomatch hread
    · next hrest => exact ⟨hrest, (Except.error.inj hread).symm⟩

theorem readType_error_decides (namespaces : NameSet) {text : String} {violation : Violation}
    (hread : readType maxNesting (.start text) = .error violation)
    (htext : text.utf8ByteSize < 2 ^ 64) :
    ∃ before after, text.toList = before ++ after ∧ Viable namespaces before ∧
      Refuses (readType maxNesting) violation 0 before after ∧
      ∀ place, violation = .tooDeep place → Reaches (maxNesting + 1) before := by
  obtain ⟨before, hstops, more, type, shown, -, htype⟩ :=
    readType_stops maxNesting _ _ hread (length_le_maxArity htext)
  obtain ⟨decided, after, hsplit, hdecides⟩ := readType_looksAhead maxNesting 0 text.toList
  rw [Cursor.start, hsplit] at hread
  rcases hdecides with ⟨value, htakes⟩ | ⟨noticed, hrefuses⟩
  · rw [htakes after rfl] at hread
    exact nomatch hread
  · rw [hrefuses.2 after rfl] at hread
    obtain rfl := Except.error.inj hread
    -- both stop at the byte that the violation tells
    have hplace := Option.some.inj (hstops.place.symm.trans hrefuses.1)
    have hwidth : width before = width decided := by
      rwa [Cursor.start, Nat.zero_add, Nat.zero_add] at hplace
    have hstart : before <+: text.toList := hstops.before
    obtain rfl := eq_of_width_eq hstart ⟨after, hsplit.symm⟩ hwidth
    exact ⟨before, after, hsplit, ⟨more, type, shown, htype⟩, hrefuses, hstops.tooDeep⟩

theorem readType_ok_decides (namespaces : NameSet) {text : String} {type : TypeName} {last : Cursor}
    (hread : readType maxNesting (.start text) = .ok (type, last))
    (htext : text.utf8ByteSize < 2 ^ 64) :
    ∃ before, text.toList = before ++ last.rest ∧
      Takes (readType maxNesting) type 0 before last.rest ∧
      ∃ shown, Derives namespaces type before shown ∧ type.nesting ≤ maxNesting := by
  obtain ⟨before, shown, hpasses, htype, hnesting⟩ :=
    readType_sound maxNesting _ _ _ hread (length_le_maxArity htext)
  obtain ⟨decided, after, hsplit, hdecides⟩ := readType_looksAhead maxNesting 0 text.toList
  have hbefore : text.toList = before ++ last.rest := hpasses.rest
  rw [Cursor.start, hsplit] at hread
  rcases hdecides with ⟨value, htakes⟩ | ⟨noticed, -, hrefuses⟩
  · rw [htakes after rfl] at hread
    cases hread
    obtain rfl : before = decided := List.append_cancel_right (hbefore.symm.trans hsplit)
    exact ⟨before, hsplit, htakes, shown, htype, hnesting⟩
  · rw [hrefuses after rfl] at hread
    exact nomatch hread

end TypeName

namespace Simplifier

open ActivityCatalogue.TypeName (Viable Derives Reaches StaysBelow unclosed width maxNesting)

theorem exists_simplify?_of_derives (simplifier : Simplifier) {type : TypeName}
    {text shown : List Char} (htype : Derives simplifier.namespaces type text shown)
    (hnesting : type.nesting ≤ maxNesting) (hwidth : width text < 2 ^ 64) :
    ∃ simplified, simplifier.simplify? (String.ofList text) = .ok simplified := by
  have hsize := TypeName.width_toList (String.ofList text)
  rw [String.toList_ofList] at hsize
  have hread : TypeName.read (String.ofList text) = .ok type := by
    rw [TypeName.read_eq_ok_iff simplifier.namespaces (hsize ▸ hwidth), String.toList_ofList]
    exact ⟨shown, htype, hnesting⟩
  exact ⟨_, simplify?_eq_ok_iff.mpr ⟨type, hread, rfl⟩⟩

/-- **Main statement.**  Where the simplification of a text fails, the text that was read can be
continued to a type, and nothing longer can: at the end of the text the whole text is no type, and
anywhere else the next character cannot follow.  Extra contents stand behind a text that is
simplified.  If the text nests too deep, it was read to the first angle bracket that is one too
many, whatever follows. -/
theorem simplify?_error_ends_viable (simplifier : Simplifier) (text : String)
    (htext : text.utf8ByteSize < 2 ^ 64) (violation : TypeName.Violation)
    (herror : simplifier.simplify? text = .error violation) :
    ∃ before after, text.toList = before ++ after ∧
      violation.stop? text = some (width before) ∧ Viable simplifier.namespaces before ∧
      ((∀ place, violation ≠ .tooDeep place) →
        ((after = [] ∧ ¬∃ type shown, Derives simplifier.namespaces type text.toList shown) ∨
          ∃ c rest, after = c :: rest ∧ ¬Viable simplifier.namespaces (before ++ [c])) ∧
        ∀ longer, longer <+: text.toList → Viable simplifier.namespaces longer →
          longer <+: before) ∧
      (∀ rest, violation = .extraContents rest → rest.toList = after ∧ after ≠ [] ∧
        ∃ simplified, simplifier.simplify? (String.ofList before) = .ok simplified) ∧
      ∀ place, violation = .tooDeep place → (∃ opened, before = opened ++ ['<']) ∧
        unclosed 0 before = maxNesting + 1 ∧ StaysBelow (maxNesting + 1) 0 before := by
  have hread := simplify?_eq_error_iff.mp herror
  rcases TypeName.read_eq_error hread with hrefused | ⟨type, last, htaken, hrest, rfl⟩
  · obtain ⟨before, after, hsplit, hviable, hrefuses, hdeep⟩ :=
      TypeName.readType_error_decides simplifier.namespaces hrefused htext
    have hwhole := TypeName.width_add_width hsplit
    have hbytes : width before ≤ TypeName.maxArity := by
      have hmax : TypeName.maxArity = 2 ^ 64 - 1 := rfl
      omega
    have hplace := hrefuses.1
    rw [Nat.zero_add] at hplace
    refine ⟨before, after, hsplit, TypeName.Violation.stop?_of_offset? hplace text, hviable,
      fun hshallow => ?_, ?_, fun place htoo => ?_⟩
    · have hblocks := TypeName.blocks_of_refuses simplifier.namespaces hrefuses hshallow hbytes
      rw [hsplit]
      exact ⟨hblocks.end_or_next, fun longer => hblocks.longest⟩
    · rintro rest rfl
      exact nomatch hplace
    · have hreaches := hdeep place htoo
      have hopened := hreaches.opened 0
      have hfirst := hreaches.first 0
      rw [Nat.zero_add] at hopened hfirst
      exact ⟨hreaches.ends, hopened, hfirst⟩
  · -- a type was read, and something stands behind it
    obtain ⟨before, hsplit, htakes, shown, htype, hnesting⟩ :=
      TypeName.readType_ok_decides simplifier.namespaces htaken htext
    have hblocks := TypeName.blocks_of_takes simplifier.namespaces htakes hrest
    have hwhole := TypeName.width_add_width hsplit
    refine ⟨before, last.rest, hsplit, TypeName.Violation.stop?_extraContents hsplit,
      ⟨[], type, shown, ?_⟩, fun _ => ?_, fun rest hextra => ?_, fun place htoo => nomatch htoo⟩
    · rwa [List.append_nil]
    · rw [hsplit]
      exact ⟨hblocks.end_or_next, fun longer => hblocks.longest⟩
    · cases hextra
      exact ⟨String.toList_ofList, hrest,
        exists_simplify?_of_derives simplifier htype hnesting (by omega)⟩

/-- A list of two that closes behind its first argument misses a comma there. -/
theorem simplify?_error_ends_viable_pair :
    "List`2<A>".utf8ByteSize < 2 ^ 64 ∧
      (ofNamespaces []).simplify? "List`2<A>" = .error (.commaMissing 8) ∧
      Viable (ofNamespaces []).namespaces "List`2<A".toList ∧
      ¬Viable (ofNamespaces []).namespaces "List`2<A>".toList := by
  have htext : "List`2<A>".utf8ByteSize < 2 ^ 64 := by decide +kernel
  have herror : (ofNamespaces []).simplify? "List`2<A>" = .error (.commaMissing 8) := by
    decide +kernel
  obtain ⟨before, after, hsplit, hstop, hviable, hlongest, -⟩ :=
    simplify?_error_ends_viable _ _ htext _ herror
  have hwidth : width before = width "List`2<A".toList := by
    have hplace : 8 = width before := Option.some.inj hstop
    rw [← hplace]
    decide +kernel
  have hstart : "List`2<A".toList <+: "List`2<A>".toList := by decide +kernel
  obtain rfl := TypeName.eq_of_width_eq ⟨after, hsplit.symm⟩ hstart hwidth
  refine ⟨htext, herror, hviable, fun hwhole => ?_⟩
  have hlonger := (hlongest (by simp)).2 _ List.prefix_rfl hwhole
  exact absurd hlonger (by decide +kernel)

end Simplifier

end ActivityCatalogue
