import Mathlib
import ActivityCatalogue.Proofs.TypeGrammar

/-!
# Reading the parts of a type name

Names, arities and array brackets need no recursion into arguments.  For each of
them three statements are proved:

* what the reader accepts derives from the grammar (`readName_sound`,
  `readArity_sound`, `readArrays_sound`);
* what the grammar derives is read to its end, provided that the text behind it
  cannot extend it (`readName_complete`, `readArity_complete`,
  `readArrays_complete`);
* a violation means that the part goes on, and then something is missing: a
  segment behind a separator (`readName_error`), a digit from 1 to 9
  (`readArity_eq_error_iff`) or a closing bracket (`readArrays_error`).

The reader takes the longest run in each case.  The provisos say that this loses
nothing: no character that may follow a part belongs to it.
-/

namespace ActivityCatalogue

namespace TypeName

variable {namespaces : NameSet}

/-! ## The cursor -/

@[simp] theorem width_append (first second : List Char) :
    width (first ++ second) = width first + width second := by
  induction first with
  | nil => simp [width]
  | cons c first ih => simp [width, ih, Nat.add_assoc]

theorem length_le_width (text : List Char) : text.length ≤ width text := by
  induction text with
  | nil => exact Nat.le_refl 0
  | cons c rest ih =>
      have hsize := c.utf8Size_pos
      rw [List.length_cons, width]
      omega

theorem width_eq_size (text : List Char) : width text = text.utf8Encode.size := by
  induction text with
  | nil => rfl
  | cons c rest ih =>
      rw [width, ih, List.utf8Encode_cons, ByteArray.size_append, List.utf8Encode_singleton,
        List.size_toByteArray, String.length_utf8EncodeChar]

/-- Places in a text are counted in its bytes. -/
theorem width_toList (text : String) : width text.toList = text.utf8ByteSize := by
  rw [width_eq_size, String.utf8Encode_toList, String.size_toByteArray]

/-- The cursor stands behind `text`, which it passed on its way from `start`. -/
structure Cursor.Passes (start : Cursor) (text : List Char) (next : Cursor) : Prop where
  rest : start.rest = text ++ next.rest
  offset : next.offset = start.offset + width text

theorem Cursor.Passes.trans {start middle next : Cursor} {first second : List Char}
    (hfirst : start.Passes first middle) (hsecond : middle.Passes second next) :
    start.Passes (first ++ second) next where
  rest := by rw [hfirst.rest, hsecond.rest, List.append_assoc]
  offset := by rw [hsecond.offset, hfirst.offset, width_append, Nat.add_assoc]

theorem Cursor.passes_nil (start : Cursor) : start.Passes [] start :=
  ⟨rfl, rfl⟩

theorem Cursor.Passes.eq_of_nil {start next : Cursor} (hpasses : start.Passes [] next) :
    next = start := by
  obtain ⟨hrest, hoffset⟩ := hpasses
  obtain ⟨offset, rest⟩ := next
  obtain rfl : offset = start.offset := hoffset
  obtain rfl : start.rest = rest := hrest
  rfl

theorem Cursor.Passes.length_le {start next : Cursor} {text : List Char}
    (hpasses : start.Passes text next) : text.length + next.rest.length = start.rest.length := by
  rw [hpasses.rest, List.length_append]

theorem Cursor.eat?_eq_some_iff {expected : Char} {cursor next : Cursor} :
    cursor.eat? expected = some next ↔ cursor.Passes [expected] next := by
  obtain ⟨offset, rest⟩ := cursor
  obtain ⟨place, behind⟩ := next
  cases rest with
  | nil => exact ⟨nofun, fun hpasses => nomatch hpasses.rest⟩
  | cons c rest =>
      rw [eat?]
      split_ifs with heq
      · subst heq
        constructor
        · intro hsome
          cases hsome
          exact ⟨rfl, rfl⟩
        · rintro ⟨hrest, hoffset⟩
          obtain rfl : rest = behind := (List.cons.inj hrest).2
          obtain rfl : place = offset + c.utf8Size := hoffset
          rfl
      · exact ⟨nofun, fun hpasses => absurd (List.cons.inj hpasses.rest).1 heq⟩

theorem Cursor.eat?_cons (expected : Char) (offset : Nat) (rest : List Char) :
    Cursor.eat? expected ⟨offset, expected :: rest⟩ = some ⟨offset + expected.utf8Size, rest⟩ := by
  rw [eat?, if_pos rfl]

theorem Cursor.eat?_eq_none {expected : Char} {offset : Nat} {rest : List Char}
    (hrest : rest.head? ≠ some expected) : Cursor.eat? expected ⟨offset, rest⟩ = none := by
  cases rest with
  | nil => rfl
  | cons c rest =>
      rw [eat?, if_neg]
      rintro rfl
      exact hrest rfl

theorem Cursor.eat_eq_ok_iff {expected : Char} {violation : Nat → Violation}
    {cursor next : Cursor} :
    cursor.eat expected violation = .ok next ↔ cursor.Passes [expected] next := by
  rw [← eat?_eq_some_iff, eat]
  cases cursor.eat? expected with
  | none => exact ⟨nofun, nofun⟩
  | some place => rw [Except.ok.injEq, Option.some.injEq]

theorem Cursor.eat_cons (expected : Char) (violation : Nat → Violation) (offset : Nat)
    (rest : List Char) :
    Cursor.eat expected violation ⟨offset, expected :: rest⟩ =
      .ok ⟨offset + expected.utf8Size, rest⟩ := by
  rw [eat, eat?_cons]

/-- A run of characters that satisfy `p` is taken as a whole if none follows. -/
theorem Cursor.span_append {p : Char → Bool} {text rest : List Char}
    (htext : ∀ c ∈ text, p c = true) (hrest : ∀ c ∈ rest.head?, p c = false) (offset : Nat) :
    Cursor.span p ⟨offset, text ++ rest⟩ = (text, ⟨offset + width text, rest⟩) := by
  have hstop : rest.takeWhile p = [] ∧ rest.dropWhile p = rest := by
    cases rest with
    | nil => exact ⟨rfl, rfl⟩
    | cons c rest =>
        have hc : p c = false := hrest c rfl
        simp [hc]
  simp only [span, List.takeWhile_append_of_pos htext, List.dropWhile_append_of_pos htext,
    hstop.1, hstop.2, List.append_nil]

theorem Cursor.passes_span (p : Char → Bool) (cursor : Cursor) :
    cursor.Passes (cursor.span p).1 (cursor.span p).2 :=
  ⟨List.takeWhile_append_dropWhile.symm, rfl⟩

theorem Cursor.all_span {p : Char → Bool} {cursor : Cursor} :
    ∀ c ∈ (cursor.span p).1, p c = true := by
  intro c hc
  exact List.all_eq_true.mp List.all_takeWhile c hc

theorem Cursor.head_span {p : Char → Bool} {cursor : Cursor} :
    ∀ c ∈ (cursor.span p).2.rest.head?, p c = false := by
  obtain ⟨offset, rest⟩ := cursor
  show ∀ c ∈ (rest.dropWhile p).head?, p c = false
  intro c hc
  have hstop := List.head?_dropWhile_not p rest
  rw [Option.mem_def.mp hc] at hstop
  exact hstop

/-! ## Characters of a name -/

theorem isSeparator_iff {c : Char} :
    QualifiedName.isSeparator c = true ↔ c = '.' ∨ c = '/' := by
  rw [QualifiedName.isSeparator, Bool.or_eq_true, beq_iff_eq, beq_iff_eq]

theorem isSegmentChar_of_isSegmentLead {c : Char} (hlead : isSegmentLead c = true) :
    isSegmentChar c = true := by
  rw [isSegmentLead, Bool.or_eq_true] at hlead
  rw [isSegmentChar, Bool.or_eq_true, Bool.or_eq_true]
  exact hlead.imp Or.inl id

theorem isSeparator_of_isSegmentChar {c : Char} (hchar : isSegmentChar c = true) :
    QualifiedName.isSeparator c = false := by
  by_contra hseparator
  rcases isSeparator_iff.mp (Bool.eq_true_of_not_eq_false hseparator) with rfl | rfl
  · exact absurd hchar (by decide)
  · exact absurd hchar (by decide)

theorem isSegment_iff {text : List Char} :
    IsSegment text ↔ startsSegment text = true ∧ ∀ c ∈ text, isSegmentChar c = true := by
  constructor
  · rintro ⟨lead, rest, rfl, hlead, hrest⟩
    exact ⟨hlead, List.forall_mem_cons.mpr ⟨isSegmentChar_of_isSegmentLead hlead, hrest⟩⟩
  · rintro ⟨hstarts, hchars⟩
    cases text with
    | nil => exact nomatch hstarts
    | cons lead rest => exact ⟨lead, rest, rfl, hstarts, (List.forall_mem_cons.mp hchars).2⟩

theorem isNameChar_of_isSegment {text : List Char} (hsegment : IsSegment text) :
    ∀ c ∈ text, isNameChar c = true := by
  intro c hc
  rw [isNameChar, (isSegment_iff.mp hsegment).2 c hc, Bool.true_or]

/-- No name goes on at the start of the text. -/
def EndsName (rest : List Char) : Prop := ∀ c ∈ rest.head?, isNameChar c = false

theorem EndsName.startsSegment {rest : List Char} (hrest : EndsName rest) :
    TypeName.startsSegment rest = false := by
  cases rest with
  | nil => rfl
  | cons c rest =>
      have hc : isNameChar c = false := hrest c rfl
      by_contra hstarts
      have hlead : isSegmentLead c = true := Bool.eq_true_of_not_eq_false hstarts
      rw [isNameChar, isSegmentChar_of_isSegmentLead hlead] at hc
      exact nomatch hc

/-! ## Cutting a text into segments -/

theorem ofText_segment {text : List Char} (htext : ∀ c ∈ text, isSegmentChar c = true) :
    QualifiedName.ofText text = ⟨text, []⟩ := by
  induction text with
  | nil => rfl
  | cons c text ih =>
      obtain ⟨hc, hrest⟩ := List.forall_mem_cons.mp htext
      rw [QualifiedName.ofText, ih hrest, isSeparator_of_isSegmentChar hc]
      rfl

theorem ofText_append {separator : Char} (hseparator : QualifiedName.isSeparator separator = true)
    (text last : List Char) :
    QualifiedName.ofText (text ++ separator :: last) =
      ⟨(QualifiedName.ofText text).first,
        (QualifiedName.ofText text).more ++
          (separator, (QualifiedName.ofText last).first) :: (QualifiedName.ofText last).more⟩ := by
  induction text with
  | nil => simp [QualifiedName.ofText, hseparator]
  | cons c text ih =>
      rw [List.cons_append, QualifiedName.ofText, QualifiedName.ofText, ih]
      split
      · rfl
      · rfl

/-- The pieces of a text that consists of name characters hold segment characters,
and separators stand between them. -/
theorem chars_ofText {text : List Char} (htext : ∀ c ∈ text, isNameChar c = true) :
    (∀ c ∈ (QualifiedName.ofText text).first, isSegmentChar c = true) ∧
      ∀ part ∈ (QualifiedName.ofText text).more,
        QualifiedName.isSeparator part.1 = true ∧ ∀ c ∈ part.2, isSegmentChar c = true := by
  induction text with
  | nil => exact ⟨nofun, nofun⟩
  | cons c text ih =>
      obtain ⟨hc, hrest⟩ := List.forall_mem_cons.mp htext
      obtain ⟨hfirst, hmore⟩ := ih hrest
      rw [QualifiedName.ofText]
      split_ifs with hseparator
      · exact ⟨nofun, List.forall_mem_cons.mpr ⟨⟨hseparator, hfirst⟩, hmore⟩⟩
      · rw [isNameChar, Bool.eq_false_of_not_eq_true hseparator, Bool.or_false] at hc
        exact ⟨List.forall_mem_cons.mpr ⟨hc, hfirst⟩, hmore⟩

theorem startsSegment_span {cursor : Cursor} (hstarts : startsSegment cursor.rest = true) :
    startsSegment (cursor.span isNameChar).1 = true := by
  obtain ⟨offset, rest⟩ := cursor
  cases rest with
  | nil => exact nomatch hstarts
  | cons c rest =>
      have hc : isNameChar c = true := by
        rw [isNameChar, isSegmentChar_of_isSegmentLead hstarts, Bool.true_or]
      rw [Cursor.span, List.takeWhile_cons_of_pos hc]
      exact hstarts

theorem startsSegment_ofText {text : List Char} (hstarts : startsSegment text = true) :
    startsSegment (QualifiedName.ofText text).first = true := by
  cases text with
  | nil => exact nomatch hstarts
  | cons c text =>
      rw [QualifiedName.ofText,
        isSeparator_of_isSegmentChar (isSegmentChar_of_isSegmentLead hstarts)]
      exact hstarts

theorem segmentFault?_eq_none_iff {more : List (Char × List Char)} {offset : Nat} :
    segmentFault? offset more = none ↔ ∀ part ∈ more, startsSegment part.2 = true := by
  induction more generalizing offset with
  | nil => exact ⟨fun _ => nofun, fun _ => rfl⟩
  | cons part more ih =>
      rw [segmentFault?, List.forall_mem_cons]
      split_ifs with hstarts
      · rw [ih]
        exact ⟨fun hmore => ⟨hstarts, hmore⟩, And.right⟩
      · exact ⟨nofun, fun hall => absurd hall.1 hstarts⟩

theorem spelling_concat (qualifier : QualifiedName) (separator : Char) (last : List Char) :
    QualifiedName.spelling ⟨qualifier.first, qualifier.more ++ [(separator, last)]⟩ =
      qualifier.spelling ++ separator :: last := by
  simp [QualifiedName.spelling]

theorem rendering_concat (qualifier : QualifiedName) (separator : Char) (last : List Char) :
    QualifiedName.rendering namespaces ⟨qualifier.first, qualifier.more ++ [(separator, last)]⟩ =
      if namespaces.contains (String.ofList qualifier.spelling) then last
      else qualifier.spelling ++ separator :: last := by
  simp only [QualifiedName.rendering, QualifiedName.qualified?, List.getLast?_concat,
    Option.map_some, List.dropLast_concat, spelling_concat]

/-! ## Names -/

theorem DerivesName.isNameChar {name : QualifiedName} {text shown : List Char}
    (hname : DerivesName namespaces name text shown) : ∀ c ∈ text, isNameChar c = true := by
  induction hname with
  | segment hsegment => exact isNameChar_of_isSegment hsegment
  | qualified _ hseparator hlast ih =>
      refine List.forall_mem_append.mpr ⟨ih, List.forall_mem_cons.mpr
        ⟨?_, isNameChar_of_isSegment hlast⟩⟩
      rw [TypeName.isNameChar, isSeparator_iff.mpr hseparator, Bool.or_true]

theorem DerivesNamePart.isNameChar {name : Option QualifiedName} {text shown : List Char}
    (hname : DerivesNamePart namespaces name text shown) : ∀ c ∈ text, isNameChar c = true := by
  cases hname with
  | absent => exact nofun
  | present hname => exact hname.isNameChar

theorem DerivesName.startsSegment {name : QualifiedName} {text shown : List Char}
    (hname : DerivesName namespaces name text shown) (rest : List Char) :
    startsSegment (text ++ rest) = true := by
  induction hname generalizing rest with
  | segment hsegment =>
      obtain ⟨lead, tail, rfl, hlead, -⟩ := hsegment
      exact hlead
  | qualified _ _ _ ih =>
      rw [List.append_assoc]
      exact ih _

/-- Cutting the text of a name gives the name back. -/
theorem DerivesName.ofText {name : QualifiedName} {text shown : List Char}
    (hname : DerivesName namespaces name text shown) : QualifiedName.ofText text = name := by
  induction hname with
  | segment hsegment => exact ofText_segment (isSegment_iff.mp hsegment).2
  | qualified _ hseparator hlast ih =>
      rw [ofText_append (isSeparator_iff.mpr hseparator), ih,
        ofText_segment (isSegment_iff.mp hlast).2]

theorem DerivesName.startsSegment_more {name : QualifiedName} {text shown : List Char}
    (hname : DerivesName namespaces name text shown) :
    ∀ part ∈ name.more, TypeName.startsSegment part.2 = true := by
  induction hname with
  | segment _ => exact nofun
  | qualified _ _ hlast ih =>
      exact List.forall_mem_append.mpr
        ⟨ih, List.forall_mem_singleton.mpr (isSegment_iff.mp hlast).1⟩

/-- What a name denotes is how it is rendered. -/
theorem DerivesName.rendering {name : QualifiedName} {text shown : List Char}
    (hname : DerivesName namespaces name text shown) : name.rendering namespaces = shown := by
  induction hname with
  | segment _ => simp [QualifiedName.rendering, QualifiedName.qualified?, QualifiedName.spelling]
  | qualified hqualifier _ _ _ =>
      rw [rendering_concat, ← hqualifier.ofText, QualifiedName.spelling_ofText]

/-- Segments with separators between them are a name. -/
theorem derivesName_of_segments {first : List Char} {more : List (Char × List Char)}
    (hfirst : IsSegment first)
    (hmore : ∀ part ∈ more, QualifiedName.isSeparator part.1 = true ∧ IsSegment part.2) :
    DerivesName namespaces ⟨first, more⟩ (QualifiedName.spelling ⟨first, more⟩)
      (QualifiedName.rendering namespaces ⟨first, more⟩) := by
  induction more using List.reverseRecOn with
  | nil =>
      have hname : DerivesName namespaces ⟨first, []⟩ first first := .segment hfirst
      rw [hname.rendering, QualifiedName.spelling, List.flatMap_nil, List.append_nil]
      exact hname
  | append_singleton more part ih =>
      obtain ⟨hinit, hpart⟩ := List.forall_mem_append.mp hmore
      obtain ⟨hseparator, hlast⟩ := List.forall_mem_singleton.mp hpart
      have hname := (ih hinit).qualified (isSeparator_iff.mp hseparator) hlast
      rw [← spelling_concat] at hname
      rw [hname.rendering]
      exact hname

theorem readName_complete {name : Option QualifiedName} {text shown : List Char}
    (hname : DerivesNamePart namespaces name text shown) {rest : List Char}
    (hrest : EndsName rest) (offset : Nat) :
    readName ⟨offset, text ++ rest⟩ = .ok (name, ⟨offset + width text, rest⟩) := by
  cases hname with
  | absent =>
      rw [List.nil_append, readName, hrest.startsSegment]
      rfl
  | present hname =>
      have hspan := Cursor.span_append hname.isNameChar hrest offset
      have hfault : ∀ place, segmentFault? place _ = none :=
        fun _ => segmentFault?_eq_none_iff.mpr hname.startsSegment_more
      unfold readName
      rw [if_pos (hname.startsSegment rest)]
      simp only [hspan, hname.ofText, hfault]

theorem readName_sound (namespaces : NameSet) {cursor next : Cursor} {name : Option QualifiedName}
    (hread : readName cursor = .ok (name, next)) :
    ∃ text, cursor.Passes text next ∧
      DerivesNamePart namespaces name text (name.elim [] (QualifiedName.rendering namespaces)) := by
  unfold readName at hread
  split_ifs at hread with hstarts
  · have hpasses := cursor.passes_span isNameChar
    have hchars : ∀ c ∈ (cursor.span isNameChar).1, isNameChar c = true := Cursor.all_span
    have hlead := startsSegment_ofText (startsSegment_span hstarts)
    generalize cursor.span isNameChar = taken at hread hpasses hchars hlead
    obtain ⟨text, behind⟩ := taken
    dsimp only at hread hpasses hchars hlead
    cases hfault : segmentFault? (cursor.offset + width (QualifiedName.ofText text).first)
        (QualifiedName.ofText text).more with
    | some place =>
        rw [hfault] at hread
        exact nomatch hread
    | none =>
        rw [hfault] at hread
        cases hread
        obtain ⟨hfirst, hmore⟩ := chars_ofText hchars
        have hname : DerivesName namespaces (QualifiedName.ofText text)
            (QualifiedName.ofText text).spelling
            ((QualifiedName.ofText text).rendering namespaces) := by
          refine derivesName_of_segments (isSegment_iff.mpr ⟨hlead, hfirst⟩) fun part hpart => ?_
          have hstart := segmentFault?_eq_none_iff.mp hfault part hpart
          exact ⟨(hmore part hpart).1, isSegment_iff.mpr ⟨hstart, (hmore part hpart).2⟩⟩
        rw [QualifiedName.spelling_ofText] at hname
        exact ⟨text, hpasses, DerivesNamePart.present hname⟩
  · cases hread
    exact ⟨[], cursor.passes_nil, DerivesNamePart.absent⟩

/-- No name goes on behind the one that was read, or there is none. -/
theorem readName_ends {cursor next : Cursor} {name : Option QualifiedName}
    (hread : readName cursor = .ok (name, next)) :
    EndsName next.rest ∨ name = none ∧ startsSegment next.rest = false := by
  unfold readName at hread
  split_ifs at hread with hstarts
  · dsimp only at hread
    split at hread
    · exact nomatch hread
    · cases hread
      exact Or.inl Cursor.head_span
  · cases hread
    exact Or.inr ⟨rfl, Bool.eq_false_of_not_eq_true hstarts⟩

theorem startsSegment_eq_of_head {first second : List Char} (hhead : first.head? = second.head?) :
    startsSegment first = startsSegment second := by
  cases second with
  | nil => rw [List.head?_eq_none_iff.mp hhead]
  | cons c second =>
      obtain ⟨rest, rfl⟩ := List.head?_eq_some_iff.mp hhead
      rfl

/-! ## A separator that no segment follows -/

theorem segmentFault?_append {more : List (Char × List Char)}
    (hmore : ∀ part ∈ more, startsSegment part.2 = true) (offset : Nat)
    (tail : List (Char × List Char)) :
    segmentFault? offset (more ++ tail) =
      segmentFault? (offset + width (more.flatMap fun part => part.1 :: part.2)) tail := by
  induction more generalizing offset with
  | nil => rfl
  | cons part more ih =>
      obtain ⟨hpart, hmore⟩ := List.forall_mem_cons.mp hmore
      rw [List.cons_append, segmentFault?, if_pos hpart, ih hmore, List.flatMap_cons,
        List.cons_append, width, width_append]
      congr 1
      omega

theorem segmentFault?_eq_some {more : List (Char × List Char)} {offset place : Nat}
    (hfault : segmentFault? offset more = some place) :
    ∃ init separator segment tail, more = init ++ (separator, segment) :: tail ∧
      (∀ part ∈ init, startsSegment part.2 = true) ∧ startsSegment segment = false ∧
      place = offset + width (init.flatMap fun part => part.1 :: part.2) + separator.utf8Size := by
  induction more generalizing offset with
  | nil => exact nomatch hfault
  | cons part more ih =>
      rw [segmentFault?] at hfault
      split_ifs at hfault with hstarts
      · obtain ⟨init, separator, segment, tail, rfl, hinit, hsegment, rfl⟩ := ih hfault
        refine ⟨part :: init, separator, segment, tail, rfl,
          List.forall_mem_cons.mpr ⟨hstarts, hinit⟩, hsegment, ?_⟩
        rw [List.flatMap_cons, List.cons_append, width, width_append]
        omega
      · exact ⟨[], part.1, part.2, more, rfl, nofun, Bool.eq_false_of_not_eq_true hstarts,
          (Option.some.inj hfault).symm⟩

theorem startsSegment_append {first second : List Char} (hfirst : startsSegment first = false)
    (hsecond : startsSegment second = false) : startsSegment (first ++ second) = false := by
  cases first with
  | nil => exact hsecond
  | cons c first => exact hfirst

theorem startsSegment_separator {c : Char} (hseparator : QualifiedName.isSeparator c = true)
    (rest : List Char) : startsSegment (c :: rest) = false := by
  rcases isSeparator_iff.mp hseparator with rfl | rfl
  · rfl
  · rfl

/-- Where no segment starts, the first piece of the run of name characters starts none. -/
theorem startsSegment_first_run {rest : List Char} (hrest : startsSegment rest = false) :
    startsSegment (QualifiedName.ofText (rest.takeWhile isNameChar)).first = false := by
  cases rest with
  | nil => rfl
  | cons c rest =>
      rw [List.takeWhile_cons]
      split_ifs
      · rw [QualifiedName.ofText]
        split_ifs
        · rfl
        · exact hrest
      · rfl

theorem readName_dangling {name : QualifiedName} {before shown : List Char}
    (hname : DerivesName namespaces name before shown) {separator : Char}
    (hseparator : QualifiedName.isSeparator separator = true) {rest : List Char}
    (hrest : startsSegment rest = false) (offset : Nat) :
    readName ⟨offset, before ++ separator :: rest⟩ =
      .error (.nameCharMissing (offset + width before + separator.utf8Size)) := by
  have hmark : isNameChar separator = true := by
    rw [isNameChar, hseparator, Bool.or_true]
  have hrun : (Cursor.span isNameChar ⟨offset, before ++ separator :: rest⟩).1 =
      before ++ separator :: rest.takeWhile isNameChar := by
    show (before ++ separator :: rest).takeWhile isNameChar = _
    rw [List.takeWhile_append_of_pos hname.isNameChar, List.takeWhile_cons_of_pos hmark]
  have hwidth : offset + width name.first +
      width (name.more.flatMap fun part => part.1 :: part.2) = offset + width before := by
    rw [Nat.add_assoc, ← width_append, ← QualifiedName.spelling_ofText before, hname.ofText]
    rfl
  unfold readName
  rw [if_pos (hname.startsSegment _)]
  dsimp only
  rw [hrun, ofText_append hseparator, hname.ofText]
  dsimp only
  rw [segmentFault?_append hname.startsSegment_more, segmentFault?,
    startsSegment_first_run hrest, hwidth]
  rfl

theorem readName_error (namespaces : NameSet) {cursor : Cursor} {violation : Violation}
    (hread : readName cursor = .error violation) :
    ∃ name before shown separator rest, DerivesName namespaces name before shown ∧
      QualifiedName.isSeparator separator = true ∧ startsSegment rest = false ∧
      cursor.rest = before ++ separator :: rest ∧
      violation = .nameCharMissing (cursor.offset + width before + separator.utf8Size) := by
  unfold readName at hread
  split_ifs at hread with hstarts
  have hpasses := cursor.passes_span isNameChar
  have hchars : ∀ c ∈ (cursor.span isNameChar).1, isNameChar c = true := Cursor.all_span
  have hends : EndsName (cursor.span isNameChar).2.rest := Cursor.head_span
  have hlead := startsSegment_ofText (startsSegment_span hstarts)
  generalize cursor.span isNameChar = taken at hread hpasses hchars hlead hends
  obtain ⟨text, behind⟩ := taken
  dsimp only at hread hpasses hchars hlead hends
  cases hfault : segmentFault? (cursor.offset + width (QualifiedName.ofText text).first)
      (QualifiedName.ofText text).more with
  | none =>
      rw [hfault] at hread
      exact nomatch hread
  | some place =>
      rw [hfault] at hread
      cases hread
      obtain ⟨init, separator, segment, tail, hmore, hinit, hsegment, rfl⟩ :=
        segmentFault?_eq_some hfault
      obtain ⟨hfirstChars, hmoreChars⟩ := chars_ofText hchars
      rw [hmore] at hmoreChars
      obtain ⟨hinitChars, hrestChars⟩ := List.forall_mem_append.mp hmoreChars
      obtain ⟨⟨hseparator, -⟩, htailChars⟩ := List.forall_mem_cons.mp hrestChars
      -- the segments up to the separator are a name
      have hname : DerivesName namespaces _ _ _ := derivesName_of_segments
        (isSegment_iff.mpr ⟨hlead, hfirstChars⟩) fun part hpart =>
          ⟨(hinitChars part hpart).1, isSegment_iff.mpr ⟨hinit part hpart,
            (hinitChars part hpart).2⟩⟩
      have htail : startsSegment ((tail.flatMap fun part => part.1 :: part.2) ++ behind.rest) =
          false := by
        cases tail with
        | nil => exact hends.startsSegment
        | cons part tail =>
            exact startsSegment_separator (htailChars part List.mem_cons_self).1 _
      refine ⟨_, _, _, separator, _, hname, hseparator, startsSegment_append hsegment htail,
        ?_, ?_⟩
      · have hspelled := QualifiedName.spelling_ofText text
        rw [QualifiedName.spelling, hmore] at hspelled
        rw [hpasses.rest]
        calc text ++ behind.rest
          _ = (QualifiedName.ofText text).first ++
              (init ++ (separator, segment) :: tail).flatMap (fun part => part.1 :: part.2) ++
                behind.rest := by rw [hspelled]
          _ = _ := by simp [QualifiedName.spelling]
      · rw [QualifiedName.spelling, width_append, Nat.add_assoc cursor.offset]

/-! ## Arities -/

theorem foldl_arity (digits : List Char) (arity : Nat) :
    digits.foldl (fun arity digit => min maxArity (arity * 10 + (digit.toNat - '0'.toNat)))
        (min maxArity arity) =
      min maxArity (Nat.ofDigitChars 10 digits arity) := by
  induction digits generalizing arity with
  | nil => rw [List.foldl_nil, Nat.ofDigitChars_nil]
  | cons digit digits ih =>
      rw [List.foldl_cons, Nat.ofDigitChars_cons, ← ih]
      congr 1
      generalize digit.toNat - '0'.toNat = value
      omega

/-- The announced arity is the value of its digits, cut at the greatest arity. -/
theorem arityOf_eq (digits : List Char) :
    arityOf digits = min maxArity (Nat.ofDigitChars 10 digits 0) := by
  rw [← foldl_arity, Nat.min_zero, arityOf]

theorem IsArity.pos {digits : List Char} {count : Nat} (harity : IsArity digits count) :
    0 < count := by
  obtain ⟨hnonempty, hdigit, hleading, hvalue⟩ := harity
  cases digits with
  | nil => exact absurd rfl hnonempty
  | cons digit digits =>
      have hhead : 1 ≤ digit.toNat - '0'.toNat := by
        have hlow := (Char.isDigit_iff_toNat.mp (hdigit digit List.mem_cons_self)).1
        have hne : digit.toNat ≠ '0'.toNat := fun heq => hleading (by
          rw [List.head?_cons, Char.toNat_inj.mp heq])
        have hzero : '0'.toNat = 48 := rfl
        omega
      rw [Nat.ofDigitChars_cons, Nat.ofDigitChars_eq_ofDigitChars_zero, Nat.mul_zero,
        Nat.zero_add] at hvalue
      calc 0 < 10 ^ digits.length * (digit.toNat - '0'.toNat) :=
            Nat.mul_pos (Nat.pow_pos (by decide)) hhead
        _ ≤ count := hvalue ▸ Nat.le_add_right _ _

theorem readArity_complete {digits : List Char} {count : Nat} (harity : IsArity digits count)
    {rest : List Char} (hrest : ∀ c ∈ rest.head?, c.isDigit = false) (offset : Nat) :
    readArity ⟨offset, digits ++ rest⟩ =
      .ok (min maxArity count, ⟨offset + width digits, rest⟩) := by
  have hspan := Cursor.span_append harity.digit hrest offset
  unfold readArity
  simp only [hspan]
  split
  · exact absurd rfl harity.nonempty
  · exact absurd rfl harity.leading
  · rw [arityOf_eq, harity.value]

theorem readArity_sound {cursor next : Cursor} {arity : Nat}
    (hread : readArity cursor = .ok (arity, next)) :
    ∃ digits count, cursor.Passes digits next ∧ IsArity digits count ∧
      arity = min maxArity count := by
  have hpasses := cursor.passes_span Char.isDigit
  have hdigit : ∀ c ∈ (cursor.span Char.isDigit).1, c.isDigit = true := Cursor.all_span
  unfold readArity at hread
  generalize cursor.span Char.isDigit = taken at hread hpasses hdigit
  obtain ⟨digits, behind⟩ := taken
  dsimp only at hread hpasses hdigit
  split at hread
  · exact nomatch hread
  · exact nomatch hread
  · next lead digits hleading =>
    cases hread
    refine ⟨lead :: digits, _, hpasses, ⟨nofun, hdigit, ?_, rfl⟩, arityOf_eq _⟩
    intro hzero
    exact hleading (Option.some.inj hzero)

theorem readArity_ends {cursor next : Cursor} {arity : Nat}
    (hread : readArity cursor = .ok (arity, next)) : ∀ c ∈ next.rest.head?, c.isDigit = false := by
  unfold readArity at hread
  dsimp only at hread
  split at hread
  · exact nomatch hread
  · exact nomatch hread
  · cases hread
    exact Cursor.head_span

/-- The reader takes no arity exactly where no digit from 1 to 9 stands. -/
theorem readArity_eq_error_iff {cursor : Cursor} {violation : Violation} :
    readArity cursor = .error violation ↔ violation = .nonZeroDigitMissing cursor.offset ∧
      ∀ c ∈ cursor.rest.head?, c.isDigit = true → c = '0' := by
  obtain ⟨offset, rest⟩ := cursor
  cases rest with
  | nil =>
      refine ⟨fun hread => ⟨(Except.error.inj hread).symm, nofun⟩, fun h => ?_⟩
      rw [h.1]
      rfl
  | cons c rest =>
      have hhead : (∀ d ∈ (c :: rest).head?, d.isDigit = true → d = '0') ↔
          (c.isDigit = true → c = '0') := by simp
      rw [hhead, readArity, Cursor.span]
      dsimp only
      rw [List.takeWhile_cons]
      by_cases hdigit : c.isDigit = true
      · rw [if_pos hdigit]
        by_cases hzero : c = '0'
        · subst hzero
          refine ⟨fun hread => ⟨(Except.error.inj hread).symm, fun _ => rfl⟩, fun h => ?_⟩
          rw [h.1]
          rfl
        · refine ⟨fun hread => ?_, fun h => absurd (h.2 hdigit) hzero⟩
          split at hread
          · next heq => exact absurd heq (List.cons_ne_nil _ _)
          · next heq => exact absurd (List.cons.inj heq).1 hzero
          · exact nomatch hread
      · rw [if_neg hdigit]
        refine ⟨fun hread => ⟨(Except.error.inj hread).symm, fun h => absurd h hdigit⟩, fun h => ?_⟩
        rw [h.1]

/-! ## Array brackets -/

theorem brackets_succ (count : Nat) : brackets (count + 1) = '[' :: ']' :: brackets count := by
  rw [brackets, List.replicate_succ, List.flatten_cons]
  rfl

theorem brackets_concat (count : Nat) : brackets (count + 1) = brackets count ++ ['[', ']'] := by
  rw [brackets, List.replicate_succ', List.flatten_concat]
  rfl

theorem mem_brackets {count : Nat} {c : Char} (hc : c ∈ brackets count) : c = '[' ∨ c = ']' := by
  rw [brackets, List.mem_flatten] at hc
  obtain ⟨pair, hpair, hc⟩ := hc
  obtain rfl := List.eq_of_mem_replicate hpair
  exact List.mem_pair.mp hc

theorem width_pair (rest : List Char) : width ('[' :: ']' :: rest) = 2 + width rest := by
  rw [width, width, ← Nat.add_assoc]
  rfl

theorem readArrays_pair (offset : Nat) (rest : List Char) :
    readArrays offset ('[' :: ']' :: rest) =
      (readArrays (offset + 2) rest).map fun read => (read.1 + 1, read.2) := rfl

theorem readArrays_of_head_ne {offset : Nat} {rest : List Char} (hrest : rest.head? ≠ some '[') :
    readArrays offset rest = .ok (0, ⟨offset, rest⟩) := by
  rw [readArrays]
  · rintro tail rfl
    exact hrest rfl
  · rintro tail rfl
    exact hrest rfl

theorem readArrays_complete (count : Nat) {rest : List Char} (hrest : rest.head? ≠ some '[')
    (offset : Nat) :
    readArrays offset (brackets count ++ rest) =
      .ok (count, ⟨offset + width (brackets count), rest⟩) := by
  induction count generalizing offset with
  | zero => exact readArrays_of_head_ne hrest
  | succ count ih =>
      rw [brackets_succ, List.cons_append, List.cons_append, readArrays_pair, ih, width_pair,
        Nat.add_assoc]
      rfl

theorem readArrays_unclosed (count : Nat) {rest : List Char} (hrest : rest.head? ≠ some ']')
    (offset : Nat) :
    readArrays offset (brackets count ++ '[' :: rest) =
      .error (.closingBracketMissing (offset + width (brackets count) + 1)) := by
  induction count generalizing offset with
  | zero =>
      rw [brackets, List.replicate_zero, List.flatten_nil, List.nil_append, readArrays]
      · rfl
      · rintro tail rfl
        exact hrest rfl
  | succ count ih =>
      rw [brackets_succ, List.cons_append, List.cons_append, readArrays_pair, ih, width_pair,
        Nat.add_assoc offset]
      rfl

/-- A text goes on behind its bracket pairs without an opening bracket, or with one that is not
closed. -/
theorem exists_brackets (text : List Char) : ∃ count rest, text = brackets count ++ rest ∧
    (rest.head? ≠ some '[' ∨ ∃ behind, rest = '[' :: behind ∧ behind.head? ≠ some ']') := by
  induction text using List.twoStepInduction with
  | nil => exact ⟨0, [], rfl, Or.inl nofun⟩
  | singleton c =>
      by_cases hopening : c = '['
      · exact ⟨0, [c], rfl, Or.inr ⟨[], by rw [hopening], nofun⟩⟩
      · exact ⟨0, [c], rfl, Or.inl fun hhead => hopening (Option.some.inj hhead)⟩
  | cons_cons c d text ih _ =>
      by_cases hopening : c = '['
      · by_cases hclosing : d = ']'
        · obtain ⟨count, rest, rfl, hrest⟩ := ih
          refine ⟨count + 1, rest, ?_, hrest⟩
          rw [hopening, hclosing, brackets_succ, List.cons_append, List.cons_append]
        · refine ⟨0, c :: d :: text, rfl, Or.inr ⟨d :: text, by rw [hopening], fun hhead => ?_⟩⟩
          exact hclosing (Option.some.inj hhead)
      · exact ⟨0, c :: d :: text, rfl, Or.inl fun hhead => hopening (Option.some.inj hhead)⟩

theorem readArrays_sound {offset count : Nat} {text : List Char} {next : Cursor}
    (hread : readArrays offset text = .ok (count, next)) :
    Cursor.Passes ⟨offset, text⟩ (brackets count) next := by
  obtain ⟨found, rest, rfl, hrest | ⟨behind, rfl, hbehind⟩⟩ := exists_brackets text
  · rw [readArrays_complete found hrest] at hread
    cases hread
    exact ⟨rfl, rfl⟩
  · rw [readArrays_unclosed found hbehind] at hread
    cases hread

/-- Behind the last pair no further bracket opens. -/
theorem readArrays_head {offset count : Nat} {text : List Char} {next : Cursor}
    (hread : readArrays offset text = .ok (count, next)) : next.rest.head? ≠ some '[' := by
  obtain ⟨found, rest, rfl, hrest | ⟨behind, rfl, hbehind⟩⟩ := exists_brackets text
  · rw [readArrays_complete found hrest] at hread
    cases hread
    exact hrest
  · rw [readArrays_unclosed found hbehind] at hread
    cases hread

theorem readArrays_error {offset : Nat} {text : List Char} {violation : Violation}
    (hread : readArrays offset text = .error violation) :
    ∃ count rest, text = brackets count ++ '[' :: rest ∧ rest.head? ≠ some ']' ∧
      violation = .closingBracketMissing (offset + width (brackets count) + 1) := by
  obtain ⟨found, rest, rfl, hrest | ⟨behind, rfl, hbehind⟩⟩ := exists_brackets text
  · rw [readArrays_complete found hrest] at hread
    cases hread
  · rw [readArrays_unclosed found hbehind] at hread
    exact ⟨found, behind, rfl, hbehind, (Except.error.inj hread).symm⟩

end TypeName

end ActivityCatalogue
