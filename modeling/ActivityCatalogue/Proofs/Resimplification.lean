import ActivityCatalogue.Proofs.TypeReading

/-!
# Simplifying twice

Simplifying drops the number of template arguments, so a simplified text is in general no
type name any more.  What decides is the template part at top level.

* **Without one** a simplified text is a shown name and brackets.  A shown name is read as a
  name and shown as it is, whatever the namespaces are (`DerivesNamePart.shown_again`): a name
  that has been cut to its last segment has no qualifier left, and one that has not been
  cut has the same qualifier as before.
* **With one** the shown name is followed by an angle bracket, where reading stops.  The text
  is refused, and so it stays as it is.

Nothing of this needs the grammar behind the angle bracket, so texts may be of any length.
-/

namespace ActivityCatalogue

namespace TypeName

variable {namespaces : NameSet}

/-! ## Shown names -/

/-- A shown name is a name that is shown as it is. -/
theorem DerivesNamePart.shown_again {name : Option QualifiedName} {text shown : List Char}
    (hname : DerivesNamePart namespaces name text shown) :
    ∃ again, DerivesNamePart namespaces again shown shown := by
  cases hname with
  | absent => exact ⟨none, .absent⟩
  | present hname =>
      cases hname with
      | segment hsegment => exact ⟨_, .present (.segment hsegment)⟩
      | @qualified qualifier text shown last separator hqualifier hseparator hlast =>
          have hwhole := hqualifier.qualified hseparator hlast
          split_ifs at hwhole ⊢
          · exact ⟨_, .present (.segment hlast)⟩
          · exact ⟨_, .present hwhole⟩

/-! ## A name with brackets -/

/-- A name with brackets is read up to an angle bracket that opens behind it. -/
theorem readTypeWith_name (argument : TypeReader) {name : Option QualifiedName}
    {text shown : List Char} (hname : DerivesNamePart namespaces name text shown) (arrays : Nat)
    {rest : List Char} (hrest : ∀ c ∈ rest.head?, c = '<') (offset : Nat) :
    readTypeWith argument ⟨offset, text ++ (brackets arrays ++ rest)⟩ =
      .ok (mk name [] arrays, ⟨offset + width text + width (brackets arrays), rest⟩) := by
  have hhead : ∀ c ∈ (brackets arrays ++ rest).head?, c = '[' ∨ c = '<' := by
    intro c hc
    cases arrays with
    | zero => exact Or.inr (hrest c hc)
    | succ arrays =>
        rw [brackets_succ] at hc
        exact Or.inl (Option.some.inj hc).symm
  have hends : EndsName (brackets arrays ++ rest) := by
    intro c hc
    rcases hhead c hc with rfl | rfl
    · decide
    · decide
  have hmark : (brackets arrays ++ rest).head? ≠ some (Char.ofNat 0x60) := by
    intro hmark
    rcases hhead _ hmark with hopening | hless
    · exact absurd hopening (by decide)
    · exact absurd hless (by decide)
  have hbracket : rest.head? ≠ some '[' := fun hopening =>
    absurd (hrest _ hopening) (by decide)
  refine bind_eq_ok_iff.mpr ⟨_, readName_complete hname hends offset, ?_⟩
  refine bind_eq_ok_iff.mpr ⟨([], ⟨offset + width text, brackets arrays ++ rest⟩), ?_, ?_⟩
  · rw [readTemplate, Cursor.eat?_eq_none hmark]
  · exact bind_eq_ok_iff.mpr ⟨_, readArrays_complete arrays hbracket _, rfl⟩

/-! ## What was read -/

/-- The text of a type starts with its name, and behind that stands a template part, or
brackets and the rest. -/
structure Opens (namespaces : NameSet) (type : TypeName) (nameText behind rest : List Char) :
    Prop where
  name : DerivesNamePart namespaces type.name nameText
    (type.name.elim [] (QualifiedName.rendering namespaces))
  plain : type.arguments = [] → behind = brackets type.arrays ++ rest
  template : type.arguments ≠ [] → behind.head? = some (Char.ofNat 0x60)

theorem readTypeWith_opens {argument : TypeReader} {cursor next : Cursor} {type : TypeName}
    (hread : readTypeWith argument cursor = .ok (type, next)) :
    ∃ nameText behind, cursor.rest = nameText ++ behind ∧
      Opens namespaces type nameText behind next.rest := by
  obtain ⟨⟨name, behindName⟩, hname, hread⟩ := bind_eq_ok_iff.mp hread
  obtain ⟨⟨arguments, behindTemplate⟩, htemplate, hread⟩ := bind_eq_ok_iff.mp hread
  obtain ⟨⟨arrays, last⟩, harrays, hread⟩ := bind_eq_ok_iff.mp hread
  cases hread
  obtain ⟨nameText, hpasses, hname⟩ := readName_sound namespaces hname
  obtain ⟨hnone, hsome⟩ := readTemplate_head htemplate
  refine ⟨nameText, behindName.rest, hpasses.rest, hname, fun hempty => ?_, hsome⟩
  obtain rfl := hnone hempty
  exact (readArrays_sound harrays).rest

theorem read_opens (namespaces : NameSet) {text : String} {type : TypeName} (hread : read text = .ok type) :
    ∃ nameText behind, text.toList = nameText ++ behind ∧
      Opens namespaces type nameText behind [] := by
  obtain ⟨argument, hargument⟩ := exists_readType_eq maxNesting
  obtain ⟨⟨found, last⟩, hfound, hread⟩ := bind_eq_ok_iff.mp hread
  rw [hargument] at hfound
  dsimp only at hread
  split at hread
  · next hend =>
      cases hread
      rw [← hend]
      exact readTypeWith_opens hfound
  · exact nomatch hread

/-- A type that was read has template arguments exactly if its text holds a backtick. -/
theorem arguments_eq_nil_iff {text : String} {type : TypeName} (hread : read text = .ok type) :
    type.arguments = [] ↔ Char.ofNat 0x60 ∉ text.toList := by
  obtain ⟨nameText, behind, htext, hopens⟩ := read_opens NameMap.empty hread
  rw [htext, List.mem_append]
  constructor
  · intro hempty
    rw [hopens.plain hempty, List.append_nil]
    rintro (hname | hbrackets)
    · exact absurd (hopens.name.isNameChar _ hname) (by decide)
    · exact absurd (mem_brackets hbrackets) (by decide)
  · intro habsent
    by_contra htemplate
    exact habsent (Or.inr (List.mem_of_head? (hopens.template htemplate)))

/-! ## Reading a shown type -/

theorem read_of_name {name : Option QualifiedName} {text shown : List Char}
    (hname : DerivesNamePart namespaces name text shown) (arrays : Nat) :
    read (String.ofList (text ++ brackets arrays)) = .ok (mk name [] arrays) := by
  obtain ⟨argument, hargument⟩ := exists_readType_eq maxNesting
  have hnothing : ∀ c ∈ ([] : List Char).head?, c = '<' := nofun
  have hread := readTypeWith_name argument hname arrays hnothing 0
  rw [List.append_nil] at hread
  rw [read, Cursor.start, String.toList_ofList, hargument, hread]
  rfl

theorem read_of_name_less {name : Option QualifiedName} {text shown : List Char}
    (hname : DerivesNamePart namespaces name text shown) (rest : List Char) :
    read (String.ofList (text ++ '<' :: rest)) =
      .error (.extraContents (String.ofList ('<' :: rest))) := by
  obtain ⟨argument, hargument⟩ := exists_readType_eq maxNesting
  have hless : ∀ c ∈ ('<' :: rest).head?, c = '<' := fun c hc => (Option.some.inj hc).symm
  have hread := readTypeWith_name argument hname 0 hless 0
  rw [show brackets 0 = [] from rfl, List.nil_append] at hread
  rw [read, Cursor.start, String.toList_ofList, hargument, hread]
  rfl

/-- What is shown of template arguments starts with an angle bracket. -/
theorem templateRendering_of_ne_nil {arguments : List TypeName} (harguments : arguments ≠ []) :
    ∃ rest, templateRendering namespaces arguments = '<' :: rest := by
  rw [templateRendering, List.isEmpty_eq_false_iff.mpr harguments]
  exact ⟨_, rfl⟩

end TypeName

namespace Simplifier

open ActivityCatalogue.TypeName (brackets templateRendering)

/-- A text without template arguments is simplified to one that is simplified to itself. -/
theorem simplify?_again_of_plain {simplifier : Simplifier} {text : String} {type : TypeName}
    (hread : TypeName.read text = .ok type) (hplain : type.arguments = []) :
    simplifier.simplify? (String.ofList (type.rendering simplifier.namespaces)) =
      .ok (String.ofList (type.rendering simplifier.namespaces)) := by
  obtain ⟨name, arguments, arrays⟩ := type
  obtain rfl : arguments = [] := hplain
  obtain ⟨_, _, _, hopens⟩ := TypeName.read_opens simplifier.namespaces hread
  obtain ⟨again, hagain⟩ := hopens.name.shown_again
  rw [TypeName.rendering_mk, templateRendering, List.isEmpty_nil, if_pos rfl, List.append_nil]
  refine simplify?_eq_ok_iff.mpr ⟨_, TypeName.read_of_name hagain arrays, ?_⟩
  rw [TypeName.rendering_mk, hagain.rendering, templateRendering, List.isEmpty_nil, if_pos rfl,
    List.append_nil]
  rfl

/-- A text with template arguments is simplified to one that cannot be read behind its name. -/
theorem simplify?_again_of_template {simplifier : Simplifier} {text : String} {type : TypeName}
    (hread : TypeName.read text = .ok type) (htemplate : type.arguments ≠ []) :
    ∃ name rest, type.rendering simplifier.namespaces = name ++ '<' :: rest ∧ '<' ∉ name ∧
      simplifier.simplify? (String.ofList (type.rendering simplifier.namespaces)) =
        .error (.extraContents (String.ofList ('<' :: rest))) := by
  obtain ⟨name, arguments, arrays⟩ := type
  obtain ⟨_, _, _, hopens⟩ := TypeName.read_opens simplifier.namespaces hread
  obtain ⟨again, hagain⟩ := hopens.name.shown_again
  obtain ⟨rest, hrest⟩ := TypeName.templateRendering_of_ne_nil htemplate
  have hrendering : TypeName.rendering simplifier.namespaces (.mk name arguments arrays) =
      name.elim [] (QualifiedName.rendering simplifier.namespaces) ++
        '<' :: (rest ++ brackets arrays) := by
    rw [TypeName.rendering_mk]
    have hrest : templateRendering simplifier.namespaces arguments = '<' :: rest := hrest
    rw [hrest, List.append_assoc, List.cons_append]
  refine ⟨_, _, hrendering, fun hless => ?_, ?_⟩
  · exact absurd (hagain.isNameChar _ hless) (by decide)
  · rw [hrendering, simplify?]
    have hrefused := TypeName.read_of_name_less hagain (rest ++ brackets arrays)
    exact congrArg _ hrefused

theorem simplify_of_ok {simplifier : Simplifier} {text simplified : String}
    (hok : simplifier.simplify? text = .ok simplified) : simplifier.simplify text = simplified := by
  rw [simplify, hok]
  rfl

theorem simplify_of_error {simplifier : Simplifier} {text : String} {violation : TypeName.Violation}
    (herror : simplifier.simplify? text = .error violation) : simplifier.simplify text = text := by
  rw [simplify, herror]
  rfl

/-- **Main statement.**  Simplifying twice is simplifying once, for every text and all
namespaces.  A text that is simplified without template arguments, that is without a backtick,
gives a text that is simplified to itself.  One with template arguments gives a text that is
refused for what stands from its first angle bracket on. -/
theorem simplify_idempotent (simplifier : Simplifier) :
    (∀ text, simplifier.simplify (simplifier.simplify text) = simplifier.simplify text) ∧
    ∀ text simplified, simplifier.simplify? text = .ok simplified →
      ∃ type, TypeName.read text = .ok type ∧
        (type.arguments = [] ↔ Char.ofNat 0x60 ∉ text.toList) ∧
        (type.arguments = [] → simplifier.simplify? simplified = .ok simplified) ∧
        (type.arguments ≠ [] → ∃ name rest, simplified.toList = name ++ '<' :: rest ∧
          '<' ∉ name ∧ simplifier.simplify? simplified =
            .error (.extraContents (String.ofList ('<' :: rest)))) := by
  have hagain : ∀ text simplified, simplifier.simplify? text = .ok simplified →
      ∃ type, TypeName.read text = .ok type ∧
        (type.arguments = [] ↔ Char.ofNat 0x60 ∉ text.toList) ∧
        (type.arguments = [] → simplifier.simplify? simplified = .ok simplified) ∧
        (type.arguments ≠ [] → ∃ name rest, simplified.toList = name ++ '<' :: rest ∧
          '<' ∉ name ∧ simplifier.simplify? simplified =
            .error (.extraContents (String.ofList ('<' :: rest)))) := by
    intro text simplified hok
    obtain ⟨type, hread, rfl⟩ := simplify?_eq_ok_iff.mp hok
    refine ⟨type, hread, TypeName.arguments_eq_nil_iff hread, simplify?_again_of_plain hread, ?_⟩
    rw [String.toList_ofList]
    exact simplify?_again_of_template hread
  refine ⟨fun text => ?_, hagain⟩
  cases hfirst : simplifier.simplify? text with
  | error violation => rw [simplify_of_error hfirst, simplify_of_error hfirst]
  | ok simplified =>
      rw [simplify_of_ok hfirst]
      obtain ⟨type, -, -, hplain, htemplate⟩ := hagain text simplified hfirst
      by_cases harguments : type.arguments = []
      · exact simplify_of_ok (hplain harguments)
      · obtain ⟨name, rest, -, -, hrefused⟩ := htemplate harguments
        exact simplify_of_error hrefused

/-- A list loses the number of its arguments, and is then refused. -/
theorem simplify_idempotent_list :
    (ofNamespaces ["System"]).simplify? "System.List`1<System.Int32>[]" = .ok "List<Int32>[]" ∧
    Char.ofNat 0x60 ∈ "System.List`1<System.Int32>[]".toList ∧
    ∃ name rest, "List<Int32>[]".toList = name ++ '<' :: rest ∧ '<' ∉ name ∧
      (ofNamespaces ["System"]).simplify? "List<Int32>[]" =
        .error (.extraContents (String.ofList ('<' :: rest))) := by
  have hok : (ofNamespaces ["System"]).simplify? "System.List`1<System.Int32>[]" =
      .ok "List<Int32>[]" := by decide +kernel
  have hmark : Char.ofNat 0x60 ∈ "System.List`1<System.Int32>[]".toList := by decide +kernel
  obtain ⟨-, hagain⟩ := simplify_idempotent (ofNamespaces ["System"])
  obtain ⟨type, -, hplain, -, htemplate⟩ := hagain _ _ hok
  exact ⟨hok, hmark, htemplate fun hempty => hplain.mp hempty hmark⟩

end Simplifier

end ActivityCatalogue
