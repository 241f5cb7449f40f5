import ActivityCatalogue.Proofs.Readings
import ActivityCatalogue.Proofs.ViablePrefix

/-!
# Template arguments without a name

The reader refuses an argument that is empty.  A name is more than that: brackets or a template
part alone are not empty, and they are taken for an argument although nothing names a type there.

Each opening angle bracket and each comma of a type name opens one argument, and each argument is
opened by one of them.  So the arguments at every depth, in the order of the text, can be set side
by side with what stands behind the openings (`Reading.aligned`).  How an argument is headed tells
whether it has a name (`Heads.startsSegment_iff`), and with this the arguments of a type all have
names exactly if a segment starts behind every opening of its text.
-/

namespace ActivityCatalogue

namespace TypeName

/-! ## Arguments at every depth -/

mutual

/-- The template arguments of a type at every depth, each in front of its own. -/
def allArguments : TypeName → List TypeName
  | mk _ arguments _ => withArguments arguments

/-- The given types, each in front of its arguments at every depth. -/
def withArguments : List TypeName → List TypeName
  | [] => []
  | type :: types => type :: (allArguments type ++ withArguments types)

end

/-! ## Openings -/

/-- An angle bracket or a comma, behind which an argument starts. -/
def opensArgument (c : Char) : Bool := c == '<' || c == ','

/-- What stands behind each opening of a text. -/
def behindOpenings : List Char → List (List Char)
  | [] => []
  | c :: rest => if opensArgument c then rest :: behindOpenings rest else behindOpenings rest

theorem behindOpenings_append {text : List Char} (htext : ∀ c ∈ text, opensArgument c = false)
    (rest : List Char) : behindOpenings (text ++ rest) = behindOpenings rest := by
  induction text with
  | nil => rfl
  | cons c text ih =>
      obtain ⟨hc, htext⟩ := List.forall_mem_cons.mp htext
      rw [List.cons_append, behindOpenings, hc, ih htext]
      rfl

/-- Characters of a kind that neither opening belongs to open no argument. -/
theorem opensArgument_of_kind {kind : Char → Bool} (hless : kind '<' = false)
    (hcomma : kind ',' = false) {c : Char} (hc : kind c = true) : opensArgument c = false := by
  have hneLess : c ≠ '<' := by
    rintro rfl
    exact absurd hc (Bool.eq_false_iff.mp hless)
  have hneComma : c ≠ ',' := by
    rintro rfl
    exact absurd hc (Bool.eq_false_iff.mp hcomma)
  simp [opensArgument, hneLess, hneComma]

theorem opensArgument_of_mem_brackets {count : Nat} {c : Char} (hc : c ∈ brackets count) :
    opensArgument c = false := by
  rcases mem_brackets hc with rfl | rfl
  · decide
  · decide

/-! ## How an argument starts -/

/-- What stands at the start of a type that is not empty: a segment if it has a name, else a
backtick if it has arguments, else a bracket. -/
inductive Heads : TypeName → List Char → Prop
  | name {name : QualifiedName} {arguments : List TypeName} {arrays : Nat} {text : List Char}
      (hsegment : startsSegment text = true) : Heads (mk (some name) arguments arrays) text
  | template {type : TypeName} {types : List TypeName} {arrays : Nat} {text : List Char}
      (hmark : text.head? = some (Char.ofNat 0x60)) : Heads (mk none (type :: types) arrays) text
  | arrays {arrays : Nat} {text : List Char} (hbracket : text.head? = some '[') :
      Heads (mk none [] (arrays + 1)) text

theorem Heads.isEmpty {type : TypeName} {text : List Char} (hheads : Heads type text) :
    type.isEmpty = false := by
  cases hheads with
  | name _ => rfl
  | template _ => rfl
  | arrays _ => rfl

theorem startsSegment_of_head? {text : List Char} {c : Char} (hhead : text.head? = some c) :
    startsSegment text = isSegmentLead c := by
  obtain ⟨rest, rfl⟩ := List.head?_eq_some_iff.mp hhead
  rfl

/-- A type has a name exactly if a segment starts it. -/
theorem Heads.startsSegment_iff {type : TypeName} {text : List Char} (hheads : Heads type text) :
    startsSegment text = true ↔ type.name.isSome = true := by
  cases hheads with
  | name hsegment => exact ⟨fun _ => rfl, fun _ => hsegment⟩
  | template hmark =>
      rw [startsSegment_of_head? hmark]
      exact ⟨fun hlead => absurd hlead (by decide), nofun⟩
  | arrays hbracket =>
      rw [startsSegment_of_head? hbracket]
      exact ⟨fun hlead => absurd hlead (by decide), nofun⟩

theorem TemplateReading.head? {arguments : List TypeName} {start next : Cursor}
    (htemplate : TemplateReading arguments start next) (hnonempty : arguments ≠ []) :
    start.rest.head? = some (Char.ofNat 0x60) := by
  cases htemplate with
  | absent => exact absurd rfl hnonempty
  | present hmark _ _ _ _ =>
      rw [hmark.rest]
      rfl

theorem Reading.heads {type : TypeName} {start next : Cursor} (htype : Reading type start next)
    (hnonempty : type.isEmpty = false) : Heads type start.rest := by
  cases htype with
  | @type name arguments arrays start behindName behindTemplate next hname htemplate harrays =>
      obtain ⟨text, hpasses, hderives⟩ := readName_sound NameMap.empty hname
      cases hderives with
      | present hname =>
          rw [hpasses.rest]
          exact .name (hname.startsSegment _)
      | absent =>
          obtain rfl := hpasses.eq_of_nil
          cases arguments with
          | cons type types => exact .template (htemplate.head? (List.cons_ne_nil _ _))
          | nil =>
              obtain rfl := htemplate.eq_of_nil
              cases arrays with
              | zero => exact nomatch hnonempty
              | succ arrays =>
                  have hrest := (readArrays_sound harrays).rest
                  rw [brackets_succ] at hrest
                  exact .arrays (congrArg List.head? hrest)

/-! ## Arguments beside their openings -/

/-- Between the two places one argument after the other is opened, and headed by what stands
behind its opening. -/
def Aligned (arguments : List TypeName) (start next : Cursor) : Prop :=
  ∃ places, behindOpenings start.rest = places ++ behindOpenings next.rest ∧
    List.Forall₂ Heads arguments places

theorem Aligned.trans {first second : List TypeName} {start middle next : Cursor}
    (hfirst : Aligned first start middle) (hsecond : Aligned second middle next) :
    Aligned (first ++ second) start next := by
  obtain ⟨firstPlaces, hfirstOpenings, hfirstHeads⟩ := hfirst
  obtain ⟨secondPlaces, hsecondOpenings, hsecondHeads⟩ := hsecond
  refine ⟨firstPlaces ++ secondPlaces, ?_, List.rel_append hfirstHeads hsecondHeads⟩
  rw [hfirstOpenings, hsecondOpenings, List.append_assoc]

theorem Cursor.Passes.aligned {start next : Cursor} {text : List Char}
    (hpasses : start.Passes text next) (hplain : ∀ c ∈ text, opensArgument c = false) :
    Aligned [] start next :=
  ⟨[], by rw [hpasses.rest, behindOpenings_append hplain, List.nil_append], .nil⟩

theorem Cursor.Passes.aligned_opening {before start : Cursor} {c : Char} {type : TypeName}
    (hopening : before.Passes [c] start) (hopens : opensArgument c = true)
    (hheads : Heads type start.rest) : Aligned [type] before start := by
  refine ⟨[start.rest], ?_, .cons hheads .nil⟩
  rw [hopening.rest, List.singleton_append, behindOpenings, hopens]
  rfl

mutual

theorem Reading.aligned {type : TypeName} {start next : Cursor} :
    Reading type start next → Aligned type.allArguments start next
  | .type hname htemplate harrays => by
      obtain ⟨text, hpasses, hderives⟩ := readName_sound NameMap.empty hname
      have hbehindName := hpasses.aligned fun c hc =>
        opensArgument_of_kind (by decide) (by decide) (hderives.isNameChar c hc)
      have hbrackets := (readArrays_sound harrays).aligned fun _ => opensArgument_of_mem_brackets
      have hwhole := (hbehindName.trans (TemplateReading.aligned htemplate)).trans hbrackets
      rwa [List.nil_append, List.append_nil] at hwhole
termination_by structural reading => reading

theorem TemplateReading.aligned {arguments : List TypeName} {start next : Cursor} :
    TemplateReading arguments start next → Aligned (withArguments arguments) start next
  | .absent => ⟨[], rfl, .nil⟩
  | .present hmark harity hopening harguments hclosing => by
      obtain ⟨digits, count, hdigits, hcount, -⟩ := readArity_sound harity
      have hbehindMark := hmark.aligned (List.forall_mem_singleton.mpr (by decide))
      have hbehindArity := hdigits.aligned fun c hc =>
        opensArgument_of_kind (by decide) (by decide) (hcount.digit c hc)
      have hopened := ArgumentsReading.aligned harguments hopening (by decide)
      have hclosed := hclosing.aligned (List.forall_mem_singleton.mpr (by decide))
      have hwhole := (hbehindMark.trans hbehindArity).trans (hopened.trans hclosed)
      rwa [List.nil_append, List.nil_append, List.append_nil] at hwhole
termination_by structural reading => reading

/-- The arguments together with the opening of the first one. -/
theorem ArgumentsReading.aligned {types : List TypeName} {start next : Cursor} :
    ArgumentsReading types start next → ∀ {before : Cursor} {c : Char},
      before.Passes [c] start → opensArgument c = true → Aligned (withArguments types) before next
  | .last htype hnonempty => fun hopening hopens => by
      have hfirst := hopening.aligned_opening hopens (htype.heads hnonempty)
      have hwhole := hfirst.trans (Reading.aligned htype)
      rwa [withArguments, withArguments, List.append_nil]
  | .more htype hnonempty hcomma hrest => fun hopening hopens => by
      have hfirst := hopening.aligned_opening hopens (htype.heads hnonempty)
      have hothers := ArgumentsReading.aligned hrest hcomma (by decide)
      exact hfirst.trans ((Reading.aligned htype).trans hothers)
termination_by structural reading => reading

end

/-- The arguments of a type that was read, and the openings of its text. -/
theorem read_aligned {text : String} {type : TypeName} (hread : read text = .ok type) :
    List.Forall₂ Heads type.allArguments (behindOpenings text.toList) := by
  obtain ⟨next, hend, hreading⟩ := read_reading hread
  obtain ⟨places, hplaces, hheads⟩ := hreading.aligned
  rw [hend, behindOpenings, List.append_nil] at hplaces
  rwa [show behindOpenings text.toList = places from hplaces]

theorem map_isSome_name {arguments : List TypeName} {places : List (List Char)}
    (hheads : List.Forall₂ Heads arguments places) :
    arguments.map (·.name.isSome) = places.map startsSegment := by
  rw [← List.forall₂_eq_eq_eq, List.forall₂_map_left_iff, List.forall₂_map_right_iff]
  exact hheads.imp fun argument behind hhead => (Bool.eq_iff_iff.mpr hhead.startsSegment_iff).symm

theorem isEmpty_of_heads {arguments : List TypeName} {places : List (List Char)}
    (hheads : List.Forall₂ Heads arguments places) :
    ∀ argument ∈ arguments, argument.isEmpty = false := by
  induction hheads with
  | nil => exact nofun
  | cons hhead _ ih => exact List.forall_mem_cons.mpr ⟨hhead.isEmpty, ih⟩

/-! ## A type as an argument -/

/-- A type that is not empty is the argument of a type. -/
theorem Derives.as_argument {namespaces : NameSet} {type : TypeName} {text shown : List Char}
    (htype : Derives namespaces type text shown) (hnonempty : text ≠ []) :
    Derives namespaces (mk (some ⟨['A'], []⟩) [type] 0)
      (['A', Char.ofNat 0x60, '1', '<'] ++ text ++ ['>']) (['A', '<'] ++ shown ++ ['>']) := by
  have htemplate := DerivesTemplate.present isArity_one (.last htype hnonempty)
  have hname : DerivesNamePart namespaces _ _ _ := .present (.segment isSegment_letter)
  simpa using derives_of_template hname htemplate

theorem read_as_argument {text : String} {type : TypeName} (hread : read text = .ok type)
    (hnonempty : text ≠ "") (hnesting : type.nesting < maxNesting)
    (htext : ("A`1<" ++ text ++ ">").utf8ByteSize < 2 ^ 64) :
    read ("A`1<" ++ text ++ ">") = .ok (mk (some ⟨['A'], []⟩) [type] 0) := by
  have hshorter : text.utf8ByteSize < 2 ^ 64 := by
    rw [String.utf8ByteSize_append, String.utf8ByteSize_append] at htext
    omega
  obtain ⟨shown, htype, -⟩ := (read_eq_ok_iff NameMap.empty hshorter).mp hread
  have hletters : text.toList ≠ [] := fun hnone => hnonempty (String.toList_eq_nil_iff.mp hnone)
  have hwhole := htype.as_argument hletters
  refine (read_eq_ok_iff NameMap.empty htext).mpr ⟨['A', '<'] ++ shown ++ ['>'], ?_, ?_⟩
  · rw [String.toList_append, String.toList_append]
    exact hwhole
  · rw [nesting, argumentNesting, argumentNesting]
    omega

end TypeName

namespace Simplifier

open ActivityCatalogue.TypeName (Heads behindOpenings startsSegment maxNesting)

/-- **Main statement.**  In a text that is simplified each argument, at whatever depth, is headed
by what stands behind its opening, and none is empty.  So all of them have names exactly if a
segment starts behind every opening.  Nothing forces this: whatever is simplified by itself and
is not empty is taken as an argument, as long as it does not nest too deep. -/
theorem simplify?_arguments_headed (simplifier : Simplifier) :
    (∀ text simplified, simplifier.simplify? text = .ok simplified →
      ∃ type, TypeName.read text = .ok type ∧
        List.Forall₂ Heads type.allArguments (behindOpenings text.toList) ∧
        (∀ argument ∈ type.allArguments, argument.isEmpty = false) ∧
        ((∀ argument ∈ type.allArguments, argument.name.isSome = true) ↔
          ∀ behind ∈ behindOpenings text.toList, startsSegment behind = true)) ∧
    ∀ text simplified type, simplifier.simplify? text = .ok simplified →
      TypeName.read text = .ok type → text ≠ "" → type.nesting < maxNesting →
        ("A`1<" ++ text ++ ">").utf8ByteSize < 2 ^ 64 →
          simplifier.simplify? ("A`1<" ++ text ++ ">") = .ok ("A<" ++ simplified ++ ">") := by
  constructor
  · intro text simplified hok
    obtain ⟨type, hread, -⟩ := simplify?_eq_ok_iff.mp hok
    have hheads := TypeName.read_aligned hread
    have hnames := TypeName.map_isSome_name hheads
    refine ⟨type, hread, hheads, TypeName.isEmpty_of_heads hheads, ?_⟩
    calc (∀ argument ∈ type.allArguments, argument.name.isSome = true)
        ↔ ∀ named ∈ type.allArguments.map (·.name.isSome), named = true :=
          (List.forall_mem_map (P := (· = true))).symm
      _ ↔ ∀ named ∈ (behindOpenings text.toList).map startsSegment, named = true := by rw [hnames]
      _ ↔ ∀ behind ∈ behindOpenings text.toList, startsSegment behind = true :=
          List.forall_mem_map
  · intro text simplified type hok hread hnonempty hnesting htext
    obtain ⟨found, hfound, rfl⟩ := simplify?_eq_ok_iff.mp hok
    obtain rfl : found = type := Except.ok.inj (hfound.symm.trans hread)
    refine simplify?_eq_ok_iff.mpr
      ⟨_, TypeName.read_as_argument hread hnonempty hnesting htext, ?_⟩
    apply String.toList_injective
    simp [TypeName.rendering, TypeName.renderings, TypeName.bracketed, TypeName.brackets,
      QualifiedName.rendering, QualifiedName.qualified?, QualifiedName.spelling]

/-- Brackets are simplified by themselves, so they are simplified as an argument. -/
theorem simplify?_arguments_headed_brackets :
    (ofNamespaces []).simplify? "[]" = .ok "[]" ∧ "[]" ≠ "" ∧
      ("A`1<" ++ "[]" ++ ">").utf8ByteSize < 2 ^ 64 ∧
      (ofNamespaces []).simplify? ("A`1<" ++ "[]" ++ ">") = .ok ("A<" ++ "[]" ++ ">") ∧
      ∃ type, TypeName.read ("A`1<" ++ "[]" ++ ">") = .ok type ∧
        ¬∀ argument ∈ type.allArguments, argument.name.isSome = true := by
  have halone : (ofNamespaces []).simplify? "[]" = .ok "[]" := by decide +kernel
  have hread : TypeName.read "[]" = .ok (.mk none [] 1) := by rfl
  have htext : ("A`1<" ++ "[]" ++ ">").utf8ByteSize < 2 ^ 64 := by decide +kernel
  obtain ⟨hheaded, htaken⟩ := simplify?_arguments_headed (ofNamespaces [])
  have hargument := htaken "[]" _ _ halone hread (by decide) (by decide) htext
  obtain ⟨type, htype, -, -, hnamed⟩ := hheaded _ _ hargument
  refine ⟨halone, by decide, htext, hargument, type, htype, fun hall => ?_⟩
  exact absurd (hnamed.mp hall) (by decide)

/-- A text is simplified although an argument in it has no name. -/
theorem nameless_argument :
    (ofNamespaces []).simplify? "A`1<[]>" = .ok "A<[]>" ∧
      ∃ type, TypeName.read "A`1<[]>" = .ok type ∧
        ∃ argument ∈ type.allArguments, argument.name.isSome = false := by
  have hbrackets : TypeName.read "[]" = .ok (.mk none [] 1) := by rfl
  have hread := TypeName.read_as_argument hbrackets (by decide) (by decide) (by decide +kernel)
  exact ⟨by decide +kernel, _, hread, _, List.mem_singleton_self _, rfl⟩

end Simplifier

end ActivityCatalogue
