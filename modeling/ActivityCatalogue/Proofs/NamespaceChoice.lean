import ActivityCatalogue.Proofs.Lexemes
import ActivityCatalogue.Proofs.Resimplification

/-!
# What the namespaces decide

The namespaces of a simplifier decide how names are shown, and nothing else.

* **Acceptance.**  The reader builds a tree, which is rendered afterwards.  `shorten` does both in
  one pass, and looks for empty arguments in what it has shortened already.  It accepts the same
  texts and notices the same violations (`shorten_eq_simplify?`), because shortening leaves no
  name empty (`DerivesNamePart.isNone_iff_shown`).
* **What is shown.**  Two simplifiers show the same lexemes of a text, and differ in a
  lexeme only where one shows a qualified name as a whole and the other its last segment
  (`shown_alike_or_shortened`).
-/

namespace ActivityCatalogue

namespace TypeName

variable {namespaces : NameSet}

/-! ## Reading and shortening in one pass -/

/-- A reader that gives the short form of what it reads. -/
abbrev TextReader := Cursor → Except Violation (List Char × Cursor)

def shortenArguments (argument : TextReader) :
    (further : Nat) → Cursor → Except Violation (List (List Char) × Cursor)
  | 0, cursor => do
    let (shown, next) ← argument cursor
    return ([shown], next)
  | further + 1, cursor => do
    let (shown, next) ← argument cursor
    let (others, last) ← shortenArguments argument further (← next.eat ',' .commaMissing)
    return (shown :: others, last)

def shortenTemplate (argument : TextReader) : TextReader := fun cursor =>
  match cursor.eat? (Char.ofNat 0x60) with
  | none => .ok ([], cursor)
  | some behindMark => do
    let (arity, behindArity) ← readArity behindMark
    let opened ← behindArity.eat '<' .lessThanMissing
    let (shown, last) ← shortenArguments argument (arity - 1) opened
    return (bracketed shown, ← last.eat '>' .greaterThanMissing)

def shortenTypeWith (namespaces : NameSet) (argument : TextReader) : TextReader := fun cursor => do
  let (name, behindName) ← readName cursor
  let (template, behindTemplate) ← shortenTemplate argument behindName
  let (arrays, last) ← readArrays behindTemplate.offset behindTemplate.rest
  return (name.elim [] (QualifiedName.rendering namespaces) ++ template ++ brackets arrays, last)

/-- An argument may not be empty once it is shortened. -/
def shortenArgumentWith (type : TextReader) : TextReader := fun cursor => do
  let (shown, next) ← type cursor
  if shown.isEmpty then .error (.templateTypeMissing cursor.offset) else .ok (shown, next)

def shortenType (namespaces : NameSet) : Nat → TextReader
  | 0 => shortenTypeWith namespaces fun cursor => .error (.tooDeep cursor.offset)
  | levels + 1 => shortenTypeWith namespaces (shortenArgumentWith (shortenType namespaces levels))

/-- The short form of the whole text, found while it is read. -/
def shorten (namespaces : NameSet) (text : String) : Except Violation String := do
  let (shown, last) ← shortenType namespaces maxNesting (.start text)
  match last.rest with
  | [] => .ok (String.ofList shown)
  | rest => .error (.extraContents (String.ofList rest))

/-! ## One pass is as good as two -/

/-- A name is shown by nothing exactly if there is none. -/
theorem DerivesNamePart.isNone_iff_shown {name : Option QualifiedName} {text shown : List Char}
    (hname : DerivesNamePart namespaces name text shown) : name.isNone = true ↔ shown = [] := by
  cases hname with
  | absent => exact ⟨fun _ => rfl, fun _ => rfl⟩
  | present hname =>
      refine ⟨nofun, fun hshown => ?_⟩
      cases hname with
      | segment hsegment =>
          obtain ⟨lead, rest, htext, -⟩ := hsegment
          rw [hshown] at htext
          exact nomatch htext
      | qualified _ _ hlast =>
          obtain ⟨lead, rest, rfl, -⟩ := hlast
          split_ifs at hshown
          exact absurd hshown (by simp)

/-- A type that was read is shown by nothing exactly if it is empty. -/
theorem isEmpty_rendering {argument : TypeReader} {cursor next : Cursor} {type : TypeName}
    (hread : readTypeWith argument cursor = .ok (type, next)) :
    (type.rendering namespaces).isEmpty = type.isEmpty := by
  obtain ⟨_, _, _, hopens⟩ : ∃ nameText behind, cursor.rest = nameText ++ behind ∧
      Opens namespaces type nameText behind next.rest := readTypeWith_opens hread
  obtain ⟨name, arguments, arrays⟩ := type
  have hname := hopens.name.isNone_iff_shown
  have htemplate : templateRendering namespaces arguments = [] ↔ arguments.isEmpty = true := by
    cases arguments with
    | nil => exact ⟨fun _ => rfl, fun _ => rfl⟩
    | cons type types => exact ⟨nofun, nofun⟩
  apply Bool.eq_iff_iff.mpr
  calc (rendering namespaces (mk name arguments arrays)).isEmpty = true
      ↔ (name.elim [] (QualifiedName.rendering namespaces) = [] ∧
          templateRendering namespaces arguments = []) ∧ brackets arrays = [] := by
        rw [List.isEmpty_iff, rendering_mk, List.append_eq_nil_iff, List.append_eq_nil_iff]
    _ ↔ (name.isNone = true ∧ arguments.isEmpty = true) ∧ arrays = 0 := by
        rw [htemplate, brackets_eq_nil_iff]
        exact and_congr_left' (and_congr_left' hname.symm)
    _ ↔ (mk name arguments arrays).isEmpty = true := by
        rw [isEmpty, Bool.and_eq_true, Bool.and_eq_true, beq_iff_eq]

/-- The one reader gives what is rendered of the type that the other one gives. -/
def Shortens (namespaces : NameSet) (shortener : TextReader) (reader : TypeReader) : Prop :=
  ∀ cursor, shortener cursor = (fun read => (read.1.rendering namespaces, read.2)) <$> reader cursor

theorem shortenArguments_eq {shortener : TextReader} {reader : TypeReader}
    (hshortens : Shortens namespaces shortener reader) (further : Nat) (cursor : Cursor) :
    shortenArguments shortener further cursor =
      (fun read => (renderings namespaces read.1, read.2)) <$>
        readArguments reader further cursor := by
  induction further generalizing cursor with
  | zero =>
      rw [shortenArguments, readArguments, hshortens, bind_map_left, map_bind]
      rfl
  | succ further ih =>
      rw [shortenArguments, readArguments, hshortens, bind_map_left, map_bind]
      congr 1
      funext read
      simp only [ih, map_bind, bind_map_left]
      rfl

theorem shortenTemplate_eq {shortener : TextReader} {reader : TypeReader}
    (hshortens : Shortens namespaces shortener reader) (cursor : Cursor) :
    shortenTemplate shortener cursor =
      (fun read => (templateRendering namespaces read.1, read.2)) <$>
        readTemplate reader cursor := by
  rw [shortenTemplate, readTemplate]
  cases cursor.eat? (Char.ofNat 0x60) with
  | none => rfl
  | some behindMark =>
      simp only [shortenArguments_eq hshortens, map_bind, bind_map_left]
      refine bind_congr fun arity => bind_congr fun opened => bind_congr_of_ok fun read hread => ?_
      have hnonempty := List.isEmpty_eq_false_iff.mpr (readArguments_ne_nil hread)
      simp only [templateRendering, hnonempty, map_pure]
      rfl

theorem shortenTypeWith_eq {shortener : TextReader} {reader : TypeReader}
    (hshortens : Shortens namespaces shortener reader) :
    Shortens namespaces (shortenTypeWith namespaces shortener) (readTypeWith reader) := by
  intro cursor
  rw [shortenTypeWith, readTypeWith]
  simp only [shortenTemplate_eq hshortens, map_bind, bind_map_left, map_pure, rendering_mk]

/-- An argument is refused by both readers or by none. -/
theorem shortenArgumentWith_eq {shortener : TextReader} {argument : TypeReader}
    (hshortens : Shortens namespaces shortener (readTypeWith argument)) :
    Shortens namespaces (shortenArgumentWith shortener)
      (readArgumentWith (readTypeWith argument)) := by
  intro cursor
  rw [shortenArgumentWith, readArgumentWith, hshortens, bind_map_left, map_bind]
  refine bind_congr_of_ok fun read hread => ?_
  dsimp only
  rw [isEmpty_rendering hread]
  split_ifs
  · rfl
  · rfl

theorem shortenType_eq (namespaces : NameSet) (levels : Nat) :
    Shortens namespaces (shortenType namespaces levels) (readType levels) := by
  induction levels with
  | zero => exact shortenTypeWith_eq fun _ => rfl
  | succ levels ih =>
      obtain ⟨argument, hargument⟩ := exists_readType_eq levels
      rw [shortenType, readType]
      rw [hargument] at ih ⊢
      exact shortenTypeWith_eq (shortenArgumentWith_eq ih)

/-! ## How a name is shown -/

theorem isSeparator_ofText (text : List Char) :
    (∀ c ∈ (QualifiedName.ofText text).first, QualifiedName.isSeparator c = false) ∧
      ∀ part ∈ (QualifiedName.ofText text).more, QualifiedName.isSeparator part.1 = true ∧
        ∀ c ∈ part.2, QualifiedName.isSeparator c = false := by
  induction text with
  | nil => exact ⟨List.forall_mem_nil _, List.forall_mem_nil _⟩
  | cons c rest ih =>
      obtain ⟨hfirst, hmore⟩ := ih
      rw [QualifiedName.ofText]
      split_ifs with hseparator
      · exact ⟨List.forall_mem_nil _, List.forall_mem_cons.mpr ⟨⟨hseparator, hfirst⟩, hmore⟩⟩
      · exact ⟨List.forall_mem_cons.mpr ⟨Bool.eq_false_of_not_eq_true hseparator, hfirst⟩, hmore⟩

/-- The run is a qualified name: the last segment stands behind a separator. -/
structure EndsWithSegment (run qualifier last : List Char) : Prop where
  split : ∃ separator, QualifiedName.isSeparator separator = true ∧
    run = qualifier ++ separator :: last
  segment : ∀ c ∈ last, QualifiedName.isSeparator c = false

/-- A name is shown as it is for whatever namespaces, or the qualifier decides. -/
theorem rendering_ofText (run : List Char) :
    (∀ namespaces, (QualifiedName.ofText run).rendering namespaces = run) ∨
      ∃ qualifier last, EndsWithSegment run qualifier last ∧
        ∀ namespaces, (QualifiedName.ofText run).rendering namespaces =
          if namespaces.contains (String.ofList qualifier) then last else run := by
  have hspelling := QualifiedName.spelling_ofText run
  have hparts := (isSeparator_ofText run).2
  generalize QualifiedName.ofText run = name at hspelling hparts ⊢
  obtain ⟨first, more⟩ := name
  rcases List.eq_nil_or_concat more with rfl | ⟨qualifiers, ⟨separator, last⟩, rfl⟩
  · refine Or.inl fun _ => ?_
    exact hspelling
  · rw [List.concat_eq_append] at hspelling hparts ⊢
    obtain ⟨-, hpart⟩ := List.forall_mem_append.mp hparts
    obtain ⟨hseparator, hlast⟩ := List.forall_mem_singleton.mp hpart
    have hrun := spelling_concat ⟨first, qualifiers⟩ separator last
    rw [hspelling] at hrun
    refine Or.inr ⟨_, last, ⟨⟨separator, hseparator, hrun⟩, hlast⟩, fun namespaces => ?_⟩
    rw [rendering_concat ⟨first, qualifiers⟩, ← hrun]

/-- The lexeme is a qualified name, and one text shows its last segment where the other one
shows the whole. -/
def Lexeme.IsShortened (lexeme : Lexeme) (short whole : List Char) : Prop :=
  ∃ qualifier, lexeme = .name whole ∧ EndsWithSegment whole qualifier short

theorem shown_alike_or_shortened (first second : NameSet) (lexeme : Lexeme) :
    lexeme.shown first = lexeme.shown second ∨
      lexeme.IsShortened (lexeme.shown first) (lexeme.shown second) ∨
      lexeme.IsShortened (lexeme.shown second) (lexeme.shown first) := by
  cases lexeme with
  | arity digits => exact Or.inl rfl
  | sign c => exact Or.inl rfl
  | name run =>
      simp only [Lexeme.shown]
      rcases rendering_ofText run with hwhole | ⟨qualifier, last, hends, hrendering⟩
      · rw [hwhole, hwhole]
        exact Or.inl rfl
      · rw [hrendering, hrendering]
        split_ifs
        · exact Or.inl rfl
        · exact Or.inr (Or.inl ⟨qualifier, rfl, hends⟩)
        · exact Or.inr (Or.inr ⟨qualifier, rfl, hends⟩)
        · exact Or.inl rfl

/-- Without namespaces everything but the arities is shown as it is. -/
theorem shown_of_no_namespaces {namespaces : NameSet}
    (hnone : ∀ name, namespaces.contains name = false) (cut : List Lexeme) :
    cut.flatMap (Lexeme.shown namespaces) =
      (cut.filter fun lexeme => !lexeme.isArity).flatMap Lexeme.spelling := by
  induction cut with
  | nil => rfl
  | cons lexeme cut ih =>
      rw [List.flatMap_cons, ih]
      cases lexeme with
      | arity digits => rfl
      | sign c => rfl
      | name run =>
          have hwhole : (QualifiedName.ofText run).rendering namespaces = run := by
            rcases rendering_ofText run with hwhole | ⟨qualifier, last, -, hrendering⟩
            · exact hwhole namespaces
            · rw [hrendering, hnone]
              rfl
          rw [Lexeme.shown, hwhole]
          rfl

end TypeName

namespace Simplifier

open ActivityCatalogue.TypeName (Lexeme lexemes IsArity)

/-- Reading and shortening in one pass is simplifying. -/
theorem shorten_eq_simplify? (simplifier : Simplifier) (text : String) :
    TypeName.shorten simplifier.namespaces text = simplifier.simplify? text := by
  rw [TypeName.shorten, TypeName.shortenType_eq, bind_map_left]
  show _ = (fun type => String.ofList (type.rendering simplifier.namespaces)) <$> TypeName.read text
  rw [TypeName.read, map_bind]
  refine bind_congr fun read => ?_
  obtain ⟨type, last⟩ := read
  dsimp only
  cases last.rest with
  | nil => rfl
  | cons c rest => rfl

theorem exists_simplify?_iff {simplifier : Simplifier} {text : String} :
    (∃ simplified, simplifier.simplify? text = .ok simplified) ↔
      ∃ type, TypeName.read text = .ok type := by
  constructor
  · rintro ⟨simplified, hok⟩
    obtain ⟨type, hread, -⟩ := simplify?_eq_ok_iff.mp hok
    exact ⟨type, hread⟩
  · rintro ⟨type, hread⟩
    exact ⟨_, simplify?_eq_ok_iff.mpr ⟨type, hread, rfl⟩⟩

/-- A simplified text shows the lexemes of the text. -/
theorem toList_of_simplify? {simplifier : Simplifier} {text simplified : String}
    (hok : simplifier.simplify? text = .ok simplified) :
    simplified.toList = (lexemes text.toList).flatMap (Lexeme.shown simplifier.namespaces) := by
  obtain ⟨type, hread, rfl⟩ := simplify?_eq_ok_iff.mp hok
  rw [String.toList_ofList, (TypeName.read_shows hread).1]

/-- **Main statement.**  Simplifying is reading and shortening in one pass.  Whatever the
namespaces are, the same texts are refused, and for the same violations.  Of a text that is
simplified two simplifiers show the same lexemes, and differ only in qualified names that one of
them cuts to the last segment.  Without namespaces all is shown but the backticks and arities. -/
theorem simplify?_under_namespaces (text : String) :
    (∀ simplifier : Simplifier,
      simplifier.simplify? text = TypeName.shorten simplifier.namespaces text) ∧
    (∀ (first second : Simplifier) violation,
      first.simplify? text = .error violation ↔ second.simplify? text = .error violation) ∧
    (∀ first second : Simplifier, (∃ simplified, first.simplify? text = .ok simplified) ↔
      ∃ simplified, second.simplify? text = .ok simplified) ∧
    (∀ (first second : Simplifier) firstSimplified secondSimplified,
      first.simplify? text = .ok firstSimplified → second.simplify? text = .ok secondSimplified →
        firstSimplified.toList =
            (lexemes text.toList).flatMap (Lexeme.shown first.namespaces) ∧
          secondSimplified.toList =
            (lexemes text.toList).flatMap (Lexeme.shown second.namespaces) ∧
          ∀ lexeme ∈ lexemes text.toList,
            lexeme.shown first.namespaces = lexeme.shown second.namespaces ∨
            lexeme.IsShortened (lexeme.shown first.namespaces) (lexeme.shown second.namespaces) ∨
            lexeme.IsShortened (lexeme.shown second.namespaces) (lexeme.shown first.namespaces)) ∧
    ∀ simplified, (ofNamespaces []).simplify? text = .ok simplified →
      text.toList = (lexemes text.toList).flatMap Lexeme.spelling ∧
      simplified.toList =
        ((lexemes text.toList).filter fun lexeme => !lexeme.isArity).flatMap Lexeme.spelling ∧
      ∀ digits, .arity digits ∈ lexemes text.toList → ∃ count, IsArity digits count := by
  refine ⟨fun simplifier => (shorten_eq_simplify? simplifier text).symm,
    fun first second violation => ?_, fun first second => ?_,
    fun first second firstSimplified secondSimplified hfirst hsecond => ?_,
    fun simplified hok => ?_⟩
  · rw [simplify?_eq_error_iff, simplify?_eq_error_iff]
  · rw [exists_simplify?_iff, exists_simplify?_iff]
  · exact ⟨toList_of_simplify? hfirst, toList_of_simplify? hsecond,
      fun lexeme _ => TypeName.shown_alike_or_shortened _ _ lexeme⟩
  · obtain ⟨type, hread, -⟩ := simplify?_eq_ok_iff.mp hok
    refine ⟨(TypeName.spelling_lexemes _).symm, ?_, (TypeName.read_shows hread).2⟩
    rw [toList_of_simplify? hok]
    exact TypeName.shown_of_no_namespaces (fun _ => rfl) _

/-- Two simplifiers show the same text, and only one of them with the qualifier. -/
theorem simplify?_under_namespaces_system :
    (ofNamespaces []).simplify? "System.Lazy`1<Int32>" = .ok "System.Lazy<Int32>" ∧
    (ofNamespaces ["System"]).simplify? "System.Lazy`1<Int32>" = .ok "Lazy<Int32>" ∧
    "System.Lazy<Int32>".toList = ((lexemes "System.Lazy`1<Int32>".toList).filter
      fun lexeme => !lexeme.isArity).flatMap Lexeme.spelling ∧
    "Lazy<Int32>".toList = (lexemes "System.Lazy`1<Int32>".toList).flatMap
      (Lexeme.shown (ofNamespaces ["System"]).namespaces) := by
  have hwhole : (ofNamespaces []).simplify? "System.Lazy`1<Int32>" = .ok "System.Lazy<Int32>" := by
    decide +kernel
  have hshort : (ofNamespaces ["System"]).simplify? "System.Lazy`1<Int32>" =
      .ok "Lazy<Int32>" := by decide +kernel
  obtain ⟨-, -, -, hpair, halone⟩ := simplify?_under_namespaces "System.Lazy`1<Int32>"
  exact ⟨hwhole, hshort, (halone _ hwhole).2.1, (hpair _ _ _ _ hwhole hshort).2.1⟩

end Simplifier

end ActivityCatalogue
