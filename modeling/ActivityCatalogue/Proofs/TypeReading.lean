import ActivityCatalogue.Proofs.Attempts
import ActivityCatalogue.Proofs.PartReading
import ActivityCatalogue.TypeName.Simplifier

/-!
# The reader decides the grammar of type names

What the reader accepts derives from the grammar (`readType_sound`), and what
derives from the grammar with few enough levels is read to its end
(`readType_complete`).  Each direction is proved for one level of template
arguments at a time: a reader of arguments that is sound or complete for
`levels` levels makes a reader of types that is so for as many, and with it a
reader of arguments for one level more.

Soundness needs the text to be no longer than the greatest arity: a longer one
could hold as many arguments as a cut arity asks for, and fewer than announced.
Completeness does without.  A text may go on with more arguments than the reader
can count, but then it is stopped behind that many of them, which is far behind
(`Overruns`).
-/

namespace ActivityCatalogue

namespace TypeName

variable {namespaces : NameSet}

/-! ## What a derivation denotes -/

/-- The template part of a rendered type. -/
def templateRendering (namespaces : NameSet) (arguments : List TypeName) : List Char :=
  if arguments.isEmpty then [] else bracketed (renderings namespaces arguments)

theorem rendering_mk (name : Option QualifiedName) (arguments : List TypeName) (arrays : Nat) :
    rendering namespaces (mk name arguments arrays) =
      name.elim [] (QualifiedName.rendering namespaces) ++
        templateRendering namespaces arguments ++ brackets arrays := by
  cases arguments with
  | nil => rw [rendering]; rfl
  | cons type types => rw [rendering]; rfl

theorem DerivesNamePart.rendering {name : Option QualifiedName} {text shown : List Char}
    (hname : DerivesNamePart namespaces name text shown) :
    name.elim [] (QualifiedName.rendering namespaces) = shown := by
  cases hname with
  | absent => rfl
  | present hname => exact hname.rendering

theorem DerivesArguments.ne_nil {types : List TypeName} {text shown : List Char}
    (harguments : DerivesArguments namespaces types text shown) : types ≠ [] := by
  cases harguments with
  | last _ _ => exact List.cons_ne_nil _ _
  | more _ _ _ => exact List.cons_ne_nil _ _

theorem intercalate_renderings_cons {type : TypeName} {types : List TypeName}
    (htypes : types ≠ []) :
    [','].intercalate (renderings namespaces (type :: types)) =
      type.rendering namespaces ++ ',' :: [','].intercalate (renderings namespaces types) := by
  obtain ⟨next, types, rfl⟩ := List.exists_cons_of_ne_nil htypes
  rw [renderings, renderings, List.intercalate_cons_cons, List.append_assoc]
  rfl

mutual

theorem Derives.rendering {type : TypeName} {text shown : List Char} :
    Derives namespaces type text shown → type.rendering namespaces = shown
  | .type hname htemplate => by
      rw [rendering_mk, hname.rendering, DerivesTemplate.rendering htemplate]
termination_by structural derivation => derivation

theorem DerivesTemplate.rendering {arguments : List TypeName} {text shown : List Char} :
    DerivesTemplate namespaces arguments text shown →
      templateRendering namespaces arguments = shown
  | .absent => rfl
  | .present _ harguments => by
      have hnonempty := List.isEmpty_eq_false_iff.mpr harguments.ne_nil
      rw [templateRendering, hnonempty, bracketed, DerivesArguments.rendering harguments]
      rfl
termination_by structural derivation => derivation

theorem DerivesArguments.rendering {types : List TypeName} {text shown : List Char} :
    DerivesArguments namespaces types text shown →
      [','].intercalate (renderings namespaces types) = shown
  | .last htype _ => by
      rw [renderings, renderings, List.intercalate_singleton, Derives.rendering htype]
  | .more htype _ hrest => by
      rw [intercalate_renderings_cons hrest.ne_nil, Derives.rendering htype,
        DerivesArguments.rendering hrest]
termination_by structural derivation => derivation

end

/-! ## Empty types and lengths -/

theorem DerivesNamePart.isNone_iff {name : Option QualifiedName} {text shown : List Char}
    (hname : DerivesNamePart namespaces name text shown) : name.isNone = true ↔ text = [] := by
  cases hname with
  | absent => exact ⟨fun _ => rfl, fun _ => rfl⟩
  | present hname =>
      refine ⟨nofun, ?_⟩
      rintro rfl
      exact nomatch hname.startsSegment []

theorem DerivesTemplate.isEmpty_iff {arguments : List TypeName} {text shown : List Char}
    (htemplate : DerivesTemplate namespaces arguments text shown) :
    arguments.isEmpty = true ↔ text = [] := by
  cases htemplate with
  | absent => exact ⟨fun _ => rfl, fun _ => rfl⟩
  | present _ harguments =>
      exact ⟨fun hempty => absurd (List.isEmpty_iff.mp hempty) harguments.ne_nil, nofun⟩

theorem brackets_eq_nil_iff {count : Nat} : brackets count = [] ↔ count = 0 := by
  cases count with
  | zero => exact ⟨fun _ => rfl, fun _ => rfl⟩
  | succ count => rw [brackets_succ]; exact ⟨nofun, nofun⟩

/-- A type is empty exactly if it is spelled by nothing at all. -/
theorem Derives.isEmpty_iff {type : TypeName} {text shown : List Char}
    (htype : Derives namespaces type text shown) : type.isEmpty = true ↔ text = [] := by
  cases htype with
  | type hname htemplate =>
      rw [isEmpty, Bool.and_eq_true, Bool.and_eq_true, beq_iff_eq, hname.isNone_iff,
        htemplate.isEmpty_iff, List.append_eq_nil_iff, List.append_eq_nil_iff, brackets_eq_nil_iff]

/-- Every argument takes a character at least, and every further one a comma. -/
theorem DerivesArguments.length_le {types : List TypeName} {text shown : List Char}
    (harguments : DerivesArguments namespaces types text shown) :
    2 * types.length ≤ text.length + 1 := by
  induction types generalizing text shown with
  | nil => exact Nat.zero_le _
  | cons type types ih =>
      cases harguments with
      | last _ hnonempty => exact Nat.succ_le_succ (List.length_pos_of_ne_nil hnonempty)
      | more _ hnonempty hrest =>
          have hfirst := List.length_pos_of_ne_nil hnonempty
          have hothers := ih hrest
          rw [List.length_cons, List.length_append, List.length_cons]
          omega

/-! ## What is read derives from the grammar -/

theorem exists_readType_eq (levels : Nat) : ∃ argument, readType levels = readTypeWith argument := by
  cases levels with
  | zero => exact ⟨_, rfl⟩
  | succ levels => exact ⟨_, rfl⟩

theorem readArguments_ne_nil {argument : TypeReader} {further : Nat} {cursor next : Cursor}
    {types : List TypeName} (hread : readArguments argument further cursor = .ok (types, next)) :
    types ≠ [] := by
  cases further with
  | zero =>
      obtain ⟨_, -, hread⟩ := bind_eq_ok_iff.mp hread
      cases hread
      exact List.cons_ne_nil _ _
  | succ further =>
      obtain ⟨_, -, hread⟩ := bind_eq_ok_iff.mp hread
      obtain ⟨_, -, hread⟩ := bind_eq_ok_iff.mp hread
      obtain ⟨_, -, hread⟩ := bind_eq_ok_iff.mp hread
      cases hread
      exact List.cons_ne_nil _ _

/-- A template part has arguments if there is one, and it starts with a backtick. -/
theorem readTemplate_head {argument : TypeReader} {cursor next : Cursor}
    {types : List TypeName} (hread : readTemplate argument cursor = .ok (types, next)) :
    (types = [] → next = cursor) ∧
      (types ≠ [] → cursor.rest.head? = some (Char.ofNat 0x60)) := by
  rw [readTemplate] at hread
  cases hmark : cursor.eat? (Char.ofNat 0x60) with
  | none =>
      rw [hmark] at hread
      cases hread
      exact ⟨fun _ => rfl, fun hne => absurd rfl hne⟩
  | some behindMark =>
      rw [hmark] at hread
      obtain ⟨_, -, hread⟩ := bind_eq_ok_iff.mp hread
      obtain ⟨_, -, hread⟩ := bind_eq_ok_iff.mp hread
      obtain ⟨_, htypes, hread⟩ := bind_eq_ok_iff.mp hread
      obtain ⟨_, -, hread⟩ := bind_eq_ok_iff.mp hread
      cases hread
      have hpassed := Cursor.eat?_eq_some_iff.mp hmark
      refine ⟨fun hnone => absurd hnone (readArguments_ne_nil htypes), fun _ => ?_⟩
      rw [hpassed.rest]
      rfl

/-- What the reader accepts derives from the grammar and nests at most `levels` deep.
The length keeps an arity from being cut. -/
def SoundType (namespaces : NameSet) (levels : Nat) (reader : TypeReader) : Prop :=
  ∀ cursor type next, reader cursor = .ok (type, next) → cursor.rest.length ≤ maxArity →
    ∃ text shown, cursor.Passes text next ∧ Derives namespaces type text shown ∧
      type.nesting ≤ levels

/-- What the reader accepts is an argument that leaves one of `levels` levels. -/
def SoundArgument (namespaces : NameSet) (levels : Nat) (argument : TypeReader) : Prop :=
  ∀ cursor type next, argument cursor = .ok (type, next) → cursor.rest.length ≤ maxArity →
    ∃ text shown, cursor.Passes text next ∧ text ≠ [] ∧ Derives namespaces type text shown ∧
      type.nesting < levels

theorem readArguments_sound {levels : Nat} {argument : TypeReader}
    (hargument : SoundArgument namespaces levels argument) {further : Nat} {cursor next : Cursor}
    {types : List TypeName} (hread : readArguments argument further cursor = .ok (types, next))
    (hlength : cursor.rest.length ≤ maxArity) :
    types.length = further + 1 ∧ argumentNesting types ≤ levels ∧
      ∃ text shown, cursor.Passes text next ∧ DerivesArguments namespaces types text shown := by
  induction further generalizing cursor types with
  | zero =>
      obtain ⟨⟨type, behind⟩, hfirst, hrest⟩ := bind_eq_ok_iff.mp hread
      cases hrest
      obtain ⟨text, shown, hpasses, hnonempty, htype, hnesting⟩ := hargument _ _ _ hfirst hlength
      refine ⟨rfl, ?_, text, shown, hpasses, DerivesArguments.last htype hnonempty⟩
      rw [argumentNesting, argumentNesting]
      omega
  | succ further ih =>
      obtain ⟨⟨type, behind⟩, hfirst, hrest⟩ := bind_eq_ok_iff.mp hread
      obtain ⟨opened, hcomma, hrest⟩ := bind_eq_ok_iff.mp hrest
      obtain ⟨⟨others, last⟩, hothers, hrest⟩ := bind_eq_ok_iff.mp hrest
      cases hrest
      obtain ⟨text, shown, hpasses, hnonempty, htype, hnesting⟩ := hargument _ _ _ hfirst hlength
      have hseparator := Cursor.eat_eq_ok_iff.mp hcomma
      have hshorter : opened.rest.length ≤ maxArity := by
        have hbehind := hpasses.length_le
        have hopened := hseparator.length_le
        omega
      obtain ⟨hcount, hothersNesting, rest, restShown, hrestPasses, harguments⟩ :=
        ih hothers hshorter
      refine ⟨by rw [List.length_cons, hcount], ?_, text ++ ',' :: rest,
        shown ++ ',' :: restShown, ?_, DerivesArguments.more htype hnonempty harguments⟩
      · rw [argumentNesting]
        omega
      · exact hpasses.trans (hseparator.trans hrestPasses)

theorem readTemplate_sound {levels : Nat} {argument : TypeReader}
    (hargument : SoundArgument namespaces levels argument) {cursor next : Cursor}
    {arguments : List TypeName} (hread : readTemplate argument cursor = .ok (arguments, next))
    (hlength : cursor.rest.length ≤ maxArity) :
    argumentNesting arguments ≤ levels ∧
      ∃ text shown, cursor.Passes text next ∧
        DerivesTemplate namespaces arguments text shown := by
  rw [readTemplate] at hread
  cases hmark : cursor.eat? (Char.ofNat 0x60) with
  | none =>
      rw [hmark] at hread
      cases hread
      exact ⟨Nat.zero_le _, [], [], cursor.passes_nil, DerivesTemplate.absent⟩
  | some behindMark =>
      rw [hmark] at hread
      obtain ⟨⟨arity, behindArity⟩, harity, hread⟩ := bind_eq_ok_iff.mp hread
      obtain ⟨opened, hopen, hread⟩ := bind_eq_ok_iff.mp hread
      obtain ⟨⟨types, last⟩, htypes, hread⟩ := bind_eq_ok_iff.mp hread
      obtain ⟨closed, hclose, hread⟩ := bind_eq_ok_iff.mp hread
      cases hread
      obtain ⟨digits, count, hdigits, hcount, hvalue⟩ := readArity_sound harity
      have hpassedMark := Cursor.eat?_eq_some_iff.mp hmark
      have hopened := Cursor.eat_eq_ok_iff.mp hopen
      have hbehindMark := hpassedMark.length_le
      have hbehindArity := hdigits.length_le
      have hbehindOpen := hopened.length_le
      obtain ⟨hlengths, hnesting, text, shown, hpasses, harguments⟩ :=
        readArguments_sound hargument htypes (by omega)
      -- the text is too short for as many arguments as a cut arity announces
      have hcut : arity = count := by
        have hfew := harguments.length_le
        have hbehindTypes := hpasses.length_le
        have hpositive := hcount.pos
        simp only [List.length_singleton] at hbehindMark hbehindOpen
        omega
      have hclosed := Cursor.eat_eq_ok_iff.mp hclose
      have hannounced : IsArity digits arguments.length := by
        have hpositive := hcount.pos
        rw [hlengths, hcut, Nat.sub_add_cancel hpositive]
        exact hcount
      refine ⟨hnesting, _, _, ?_, DerivesTemplate.present hannounced harguments⟩
      have hall := hpassedMark.trans (hdigits.trans (hopened.trans (hpasses.trans hclosed)))
      simpa using hall

theorem readTypeWith_sound {levels : Nat} {argument : TypeReader}
    (hargument : SoundArgument namespaces levels argument) :
    SoundType namespaces levels (readTypeWith argument) := by
  intro cursor type next hread hlength
  obtain ⟨⟨name, behindName⟩, hname, hread⟩ := bind_eq_ok_iff.mp hread
  obtain ⟨⟨arguments, behindTemplate⟩, htemplate, hread⟩ := bind_eq_ok_iff.mp hread
  obtain ⟨⟨arrays, last⟩, harrays, hread⟩ := bind_eq_ok_iff.mp hread
  cases hread
  obtain ⟨nameText, hnamePasses, hname⟩ := readName_sound namespaces hname
  have hbehindName := hnamePasses.length_le
  obtain ⟨hnesting, templateText, templateShown, htemplatePasses, htemplate⟩ :=
    readTemplate_sound hargument htemplate (by omega)
  have harraysPasses := readArrays_sound harrays
  refine ⟨_, _, ?_, Derives.type hname htemplate, by rwa [nesting]⟩
  exact (hnamePasses.trans htemplatePasses).trans harraysPasses

theorem readArgumentWith_sound {levels : Nat} {reader : TypeReader}
    (hreader : SoundType namespaces levels reader) :
    SoundArgument namespaces (levels + 1) (readArgumentWith reader) := by
  intro cursor type next hread hlength
  obtain ⟨⟨argument, behind⟩, hargument, hread⟩ := bind_eq_ok_iff.mp hread
  dsimp only at hread
  split_ifs at hread with hempty
  cases hread
  obtain ⟨text, shown, hpasses, htype, hnesting⟩ := hreader _ _ _ hargument hlength
  refine ⟨text, shown, hpasses, fun htext => ?_, htype, Nat.lt_succ_of_le hnesting⟩
  exact hempty (htype.isEmpty_iff.mpr htext)

/-- **Soundness.**  Whatever is read derives from the grammar. -/
theorem readType_sound (levels : Nat) : SoundType namespaces levels (readType levels) := by
  induction levels with
  | zero => exact readTypeWith_sound fun _ _ _ hread _ => nomatch hread
  | succ levels ih => exact readTypeWith_sound (readArgumentWith_sound ih)

/-! ## What derives from the grammar is read -/

/-- No type goes on at the start of the text: it ends, or an argument list goes on. -/
def EndsType (rest : List Char) : Prop := ∀ c ∈ rest.head?, c = ',' ∨ c = '>'

theorem endsType_closing (rest : List Char) : EndsType ('>' :: rest) := by
  intro c hc
  exact Or.inr (Option.some.inj hc).symm

theorem endsType_comma (rest : List Char) : EndsType (',' :: rest) := by
  intro c hc
  exact Or.inl (Option.some.inj hc).symm

/-- The reader has counted to the greatest arity and finds one more argument where it looks for
the closing bracket.  This takes a long text, and happens far behind its start. -/
def Overruns {α : Type} (result : Except Violation α) (offset : Nat) (text : List Char) : Prop :=
  maxArity < text.length ∧
    ∃ place, offset + maxArity < place ∧ result = .error (.greaterThanMissing place)

/-- The text is read to its end, unless it is so long that the reader overruns. -/
def Reads {α : Type} (result : Except Violation (α × Cursor)) (value : α) (offset : Nat)
    (text rest : List Char) : Prop :=
  result = .ok (value, ⟨offset + width text, rest⟩) ∨ Overruns result offset text

theorem Overruns.bind {α β : Type} {first : Except Violation α} {offset : Nat} {text : List Char}
    (hfirst : Overruns first offset text) (next : α → Except Violation β) (behind : List Char) :
    Overruns (first >>= next) offset (text ++ behind) := by
  obtain ⟨hlong, place, hplace, rfl⟩ := hfirst
  refine ⟨?_, place, hplace, rfl⟩
  rw [List.length_append]
  omega

theorem Overruns.behind {α : Type} {result : Except Violation α} {offset start : Nat}
    {text : List Char} (hresult : Overruns result start text) (hstart : offset ≤ start)
    (before : List Char) : Overruns result offset (before ++ text) := by
  obtain ⟨hlong, place, hplace, rfl⟩ := hresult
  refine ⟨?_, place, by omega, rfl⟩
  rw [List.length_append]
  omega

theorem Reads.behind {α : Type} {result : Except Violation (α × Cursor)} {value : α}
    {offset : Nat} (before : List Char) {text rest : List Char}
    (hresult : Reads result value (offset + width before) text rest) :
    Reads result value offset (before ++ text) rest := by
  rcases hresult with hresult | hresult
  · rw [Nat.add_assoc, ← width_append] at hresult
    exact Or.inl hresult
  · exact Or.inr (hresult.behind (Nat.le_add_right _ _) before)

theorem Reads.bind {α β : Type} {first : Except Violation (α × Cursor)}
    {next : α × Cursor → Except Violation (β × Cursor)} {value : α} {result : β} {offset : Nat}
    {text behind more rest : List Char} (hfirst : Reads first value offset text behind)
    (hnext : Reads (next (value, ⟨offset + width text, behind⟩)) result (offset + width text)
      more rest) :
    Reads (first >>= next) result offset (text ++ more) rest := by
  rcases hfirst with rfl | hfirst
  · exact hnext.behind text
  · exact Or.inr (hfirst.bind next more)

theorem Reads.eat {β : Type} {next : Cursor → Except Violation (β × Cursor)} {result : β}
    {expected : Char} {offset : Nat} {behind more rest : List Char}
    (hnext : Reads (next ⟨offset + expected.utf8Size, behind⟩) result
      (offset + expected.utf8Size) more rest) (violation : Nat → Violation) :
    Reads (Cursor.eat expected violation ⟨offset, expected :: behind⟩ >>= next) result
      offset (expected :: more) rest := by
  rw [Cursor.eat_cons]
  exact Reads.behind [expected] hnext

theorem Reads.map {α β : Type} {first : Except Violation (α × Cursor)} {value : α} {offset : Nat}
    {text rest : List Char} (hfirst : Reads first value offset text rest) (f : α → β) :
    Reads (first >>= fun read => .ok (f read.1, read.2)) (f value) offset text rest := by
  rcases hfirst with rfl | hfirst
  · exact Or.inl rfl
  · have hwhole := hfirst.bind (fun read => .ok (f read.1, read.2)) []
    rw [List.append_nil] at hwhole
    exact Or.inr hwhole

/-- The reader takes every type that nests at most `levels` deep. -/
def CompleteType (namespaces : NameSet) (levels : Nat) (reader : TypeReader) : Prop :=
  ∀ type text shown, Derives namespaces type text shown → type.nesting ≤ levels →
    ∀ rest, EndsType rest → ∀ offset,
      Reads (reader ⟨offset, text ++ rest⟩) type offset text rest

/-- The reader takes every argument that leaves one of `levels` levels. -/
def CompleteArgument (namespaces : NameSet) (levels : Nat) (argument : TypeReader) : Prop :=
  ∀ type text shown, Derives namespaces type text shown → text ≠ [] → type.nesting < levels →
    ∀ rest, EndsType rest → ∀ offset,
      Reads (argument ⟨offset, text ++ rest⟩) type offset text rest

theorem readArguments_complete {levels : Nat} {argument : TypeReader}
    (hargument : CompleteArgument namespaces levels argument) {types : List TypeName}
    {text shown : List Char} (harguments : DerivesArguments namespaces types text shown)
    (hnesting : argumentNesting types ≤ levels) {rest : List Char} (hrest : EndsType rest)
    (offset : Nat) :
    Reads (readArguments argument (types.length - 1) ⟨offset, text ++ rest⟩) types offset text
      rest := by
  induction types generalizing text shown offset with
  | nil => exact absurd rfl harguments.ne_nil
  | cons type types ih =>
      rw [argumentNesting] at hnesting
      cases harguments with
      | last htype hnonempty =>
          exact (hargument _ _ _ htype hnonempty (by omega) _ hrest offset).map fun type => [type]
      | @more _ _ text shown others othersShown htype hnonempty hothers =>
          obtain ⟨next, types, rfl⟩ := List.exists_cons_of_ne_nil hothers.ne_nil
          have hfirst := hargument _ _ _ htype hnonempty (by omega) _
            (endsType_comma (others ++ rest)) offset
          have hfurther := ih hothers (by omega) (offset + width text + ','.utf8Size)
          rw [List.append_assoc, List.cons_append]
          exact hfirst.bind ((hfurther.map (type :: ·)).eat .commaMissing)

/-- The first ones of some arguments stand in front of a comma. -/
theorem DerivesArguments.take {types : List TypeName} {text shown : List Char}
    (harguments : DerivesArguments namespaces types text shown) {count : Nat} (hpos : 0 < count)
    (hcount : count < types.length) :
    ∃ taken takenShown behind, DerivesArguments namespaces (types.take count) taken takenShown ∧
      text = taken ++ ',' :: behind := by
  induction types generalizing text shown count with
  | nil => exact absurd hcount (Nat.not_lt_zero _)
  | cons type types ih =>
      obtain ⟨count, rfl⟩ := Nat.exists_eq_add_one_of_ne_zero hpos.ne'
      cases harguments with
      | last htype hnonempty => exact absurd hcount (by simp)
      | more htype hnonempty hothers =>
          rcases Nat.eq_zero_or_pos count with rfl | hfurther
          · exact ⟨_, _, _, .last htype hnonempty, rfl⟩
          · obtain ⟨taken, takenShown, behind, htaken, rfl⟩ :=
              ih hothers hfurther (Nat.lt_of_succ_lt_succ hcount)
            refine ⟨_, _, behind, .more htype hnonempty htaken, ?_⟩
            rw [List.append_assoc, List.cons_append]

theorem argumentNesting_take_le (types : List TypeName) (count : Nat) :
    argumentNesting (types.take count) ≤ argumentNesting types := by
  induction types generalizing count with
  | nil => rw [List.take_nil]
  | cons type types ih =>
      cases count with
      | zero => exact Nat.zero_le _
      | succ count =>
          have hrest := ih count
          rw [List.take_succ_cons, argumentNesting, argumentNesting]
          omega

/-- Behind the template part of a type stand brackets, or what ends the type. -/
theorem EndsType.head_brackets {rest : List Char} (hrest : EndsType rest) (arrays : Nat) :
    ∀ c ∈ (brackets arrays ++ rest).head?, c = '[' ∨ c = ',' ∨ c = '>' := by
  intro c hc
  cases arrays with
  | zero => exact Or.inr (hrest c hc)
  | succ arrays =>
      rw [brackets_succ] at hc
      exact Or.inl (Option.some.inj hc).symm

/-- What stands behind the name of a type cannot extend the name. -/
theorem DerivesTemplate.endsName {arguments : List TypeName} {text shown : List Char}
    (htemplate : DerivesTemplate namespaces arguments text shown) {rest : List Char}
    (hrest : EndsType rest) (arrays : Nat) : EndsName (text ++ (brackets arrays ++ rest)) := by
  intro c hc
  cases htemplate with
  | present _ _ =>
      obtain rfl : Char.ofNat 0x60 = c := Option.some.inj hc
      decide
  | absent =>
      rcases hrest.head_brackets arrays c hc with rfl | rfl | rfl
      all_goals decide

/-- The arguments of a template part, up to the closing bracket.  If there are more than the
reader can count, it stops at the comma behind the last one that it counted. -/
theorem readArguments_closed {levels : Nat} {argument : TypeReader}
    (hargument : CompleteArgument namespaces levels argument) {types : List TypeName}
    {text shown : List Char} (harguments : DerivesArguments namespaces types text shown)
    (hnesting : argumentNesting types ≤ levels) (rest : List Char) (offset : Nat) :
    Reads (do
      let (types, last) ← readArguments argument (min maxArity types.length - 1)
        ⟨offset, text ++ ('>' :: rest)⟩
      return (types, ← last.eat '>' .greaterThanMissing)) types offset (text ++ ['>']) rest := by
  by_cases hfew : types.length ≤ maxArity
  · have hread := readArguments_complete hargument harguments hnesting (endsType_closing rest)
      offset
    rw [Nat.min_eq_right hfew]
    exact hread.bind (Reads.eat (Or.inl rfl) .greaterThanMissing)
  · have hmany : maxArity < types.length := Nat.lt_of_not_le hfew
    have hpos : 0 < maxArity := by decide
    obtain ⟨taken, takenShown, behind, htaken, rfl⟩ := harguments.take hpos hmany
    have htakenNesting := (argumentNesting_take_le types maxArity).trans hnesting
    have hread := readArguments_complete hargument htaken htakenNesting
      (endsType_comma (behind ++ '>' :: rest)) offset
    have hcounted : (types.take maxArity).length = maxArity := by
      rw [List.length_take, Nat.min_eq_left hmany.le]
    have hlong : maxArity < taken.length := by
      have hmax : 1 < maxArity := by decide
      have hlength := hcounted ▸ htaken.length_le
      omega
    have hbytes : maxArity < width taken := hlong.trans_le (length_le_width taken)
    rw [hcounted] at hread
    rw [Nat.min_eq_left hmany.le, List.append_assoc, List.append_assoc, List.cons_append]
    rcases hread with hread | hread
    · refine Or.inr ⟨?_, offset + width taken, Nat.add_lt_add_left hbytes offset, ?_⟩
      · rw [List.length_append]
        omega
      · rw [hread]
        rfl
    · exact Or.inr (hread.bind _ _)

theorem readTemplate_complete {levels : Nat} {argument : TypeReader}
    (hargument : CompleteArgument namespaces levels argument) {arguments : List TypeName}
    {text shown : List Char} (htemplate : DerivesTemplate namespaces arguments text shown)
    (hnesting : argumentNesting arguments ≤ levels) {rest : List Char}
    (hrest : rest.head? ≠ some (Char.ofNat 0x60)) (offset : Nat) :
    Reads (readTemplate argument ⟨offset, text ++ rest⟩) arguments offset text rest := by
  cases htemplate with
  | absent =>
      rw [List.nil_append, readTemplate, Cursor.eat?_eq_none hrest]
      exact Or.inl rfl
  | @present _ digits text shown harity harguments =>
      have hopening : ∀ c ∈ ('<' :: (text ++ '>' :: rest)).head?, c.isDigit = false := by
        intro c hc
        obtain rfl : '<' = c := Option.some.inj hc
        decide
      have hannounced := readArity_complete harity hopening (offset + (Char.ofNat 0x60).utf8Size)
      have hclosed := readArguments_closed hargument harguments hnesting rest
        (offset + (Char.ofNat 0x60).utf8Size + width digits + '<'.utf8Size)
      simp only [List.append_assoc, List.cons_append, List.nil_append]
      rw [readTemplate, Cursor.eat?_cons]
      show Reads _ _ _ ([Char.ofNat 0x60] ++ (digits ++ '<' :: (text ++ ['>']))) rest
      refine Reads.behind _ (Reads.bind (Or.inl hannounced) ?_)
      exact hclosed.eat .lessThanMissing

theorem readTypeWith_complete {levels : Nat} {argument : TypeReader}
    (hargument : CompleteArgument namespaces levels argument) :
    CompleteType namespaces levels (readTypeWith argument) := by
  intro type text shown htype hnesting rest hrest offset
  cases htype with
  | @type name arguments arrays nameText nameShown templateText templateShown hname htemplate =>
      rw [nesting] at hnesting
      have hbehind : (brackets arrays ++ rest).head? ≠ some (Char.ofNat 0x60) := by
        intro hhead
        rcases hrest.head_brackets arrays _ hhead with hopening | hcomma | hclosing
        · exact absurd hopening (by decide)
        · exact absurd hcomma (by decide)
        · exact absurd hclosing (by decide)
      have hbracket : rest.head? ≠ some '[' := by
        intro hhead
        rcases hrest _ hhead with hcomma | hclosing
        · exact absurd hcomma (by decide)
        · exact absurd hclosing (by decide)
      -- each part is read to its end, since what stands behind it cannot extend it
      have hnameRead := readName_complete hname (htemplate.endsName hrest arrays) offset
      have htemplateRead := readTemplate_complete hargument htemplate hnesting hbehind
        (offset + width nameText)
      have harraysRead := readArrays_complete arrays hbracket
        (offset + width nameText + width templateText)
      simp only [List.append_assoc]
      exact Reads.bind (Or.inl hnameRead)
        (htemplateRead.bind (Reads.map (Or.inl harraysRead) (mk name arguments)))

theorem readArgumentWith_complete {levels : Nat} {reader : TypeReader}
    (hreader : CompleteType namespaces levels reader) :
    CompleteArgument namespaces (levels + 1) (readArgumentWith reader) := by
  intro type text shown htype hnonempty hnesting rest hrest offset
  have hread := hreader _ _ _ htype (Nat.le_of_lt_succ hnesting) rest hrest offset
  rcases hread with hread | hread
  · refine Or.inl (bind_eq_ok_iff.mpr ⟨_, hread, ?_⟩)
    exact if_neg fun hempty => hnonempty (htype.isEmpty_iff.mp hempty)
  · have hwhole := hread.bind (fun read => if read.1.isEmpty then
      .error (.templateTypeMissing offset) else .ok (read.1, read.2)) []
    rw [List.append_nil] at hwhole
    exact Or.inr hwhole

/-- **Completeness.**  Whatever derives from the grammar is read to its end, unless the reader
overruns it. -/
theorem readType_complete (levels : Nat) : CompleteType namespaces levels (readType levels) := by
  induction levels with
  | zero =>
      -- no argument leaves one of no levels
      exact readTypeWith_complete fun _ _ _ _ _ hnesting => absurd hnesting (Nat.not_lt_zero _)
  | succ levels ih => exact readTypeWith_complete (readArgumentWith_complete ih)

/-- A text that is not too long to count its arguments is read to its end. -/
theorem readType_of_length_le {levels : Nat} {type : TypeName} {text shown : List Char}
    (htype : Derives namespaces type text shown) (hnesting : type.nesting ≤ levels)
    (hlength : text.length ≤ maxArity) (offset : Nat) :
    readType levels ⟨offset, text⟩ = .ok (type, ⟨offset + width text, []⟩) := by
  have hread := readType_complete levels _ _ _ htype hnesting [] nofun offset
  rw [List.append_nil] at hread
  rcases hread with hread | hread
  · exact hread
  · exact absurd hread.1 (Nat.not_lt.mpr hlength)

/-! ## Whole texts -/

theorem length_le_maxArity {text : String} (htext : text.utf8ByteSize < 2 ^ 64) :
    text.toList.length ≤ maxArity := by
  have hwidth := length_le_width text.toList
  rw [width_toList] at hwidth
  have hmax : maxArity = 2 ^ 64 - 1 := rfl
  omega

/-- A text that derives from the grammar derives in one way, and denotes one text. -/
theorem Derives.unique {first second : TypeName} {text firstShown secondShown : List Char}
    (hfirst : Derives namespaces first text firstShown)
    (hsecond : Derives namespaces second text secondShown) (hlength : text.length ≤ maxArity) :
    first = second ∧ firstShown = secondShown := by
  -- the reader that goes deep enough for both takes both from the same place
  have hfirstRead := readType_of_length_le hfirst
    (Nat.le_max_left first.nesting second.nesting) hlength 0
  have hsecondRead := readType_of_length_le hsecond
    (Nat.le_max_right first.nesting second.nesting) hlength 0
  rw [hfirstRead] at hsecondRead
  obtain rfl : first = second := congrArg Prod.fst (Except.ok.inj hsecondRead)
  exact ⟨rfl, hfirst.rendering.symm.trans hsecond.rendering⟩

theorem read_eq_ok_iff (namespaces : NameSet) {text : String}
    (htext : text.utf8ByteSize < 2 ^ 64) {type : TypeName} :
    read text = .ok type ↔
      ∃ shown, Derives namespaces type text.toList shown ∧ type.nesting ≤ maxNesting := by
  have hlength := length_le_maxArity htext
  constructor
  · intro hread
    obtain ⟨⟨read, last⟩, htype, hread⟩ := bind_eq_ok_iff.mp hread
    obtain ⟨spelled, shown, hpasses, hderives, hnesting⟩ :=
      readType_sound maxNesting _ _ _ htype hlength
    dsimp only at hread
    split at hread
    · next hend =>
      cases hread
      have hwhole : text.toList = spelled := by
        have hrest := hpasses.rest
        rwa [hend, List.append_nil] at hrest
      exact ⟨shown, hwhole ▸ hderives, hnesting⟩
    · exact nomatch hread
  · rintro ⟨shown, hderives, hnesting⟩
    have hread := readType_of_length_le hderives hnesting hlength 0
    exact bind_eq_ok_iff.mpr ⟨_, hread, rfl⟩

end TypeName

/-! ## Simplified type names -/

namespace Simplifier

theorem simplify?_eq_ok_iff {simplifier : Simplifier} {text simplified : String} :
    simplifier.simplify? text = .ok simplified ↔ ∃ type, TypeName.read text = .ok type ∧
      String.ofList (type.rendering simplifier.namespaces) = simplified := by
  rw [simplify?]
  cases TypeName.read text with
  | error violation => simp [Except.map]
  | ok type => simp [Except.map]

theorem simplify?_eq_error_iff {simplifier : Simplifier} {text : String}
    {violation : TypeName.Violation} :
    simplifier.simplify? text = .error violation ↔ TypeName.read text = .error violation := by
  rw [simplify?]
  cases TypeName.read text with
  | error violation => simp [Except.map]
  | ok type => simp [Except.map]

/-- **Main statement.**  A text is simplified exactly if it derives from the grammar
with at most `maxNesting` levels of template arguments.  Its derivation is unique,
and the simplified text is what the derivation denotes. -/
theorem simplify?_eq_ok_iff_derives (simplifier : Simplifier) (text : String)
    (htext : text.utf8ByteSize < 2 ^ 64) :
    (∀ simplified, simplifier.simplify? text = .ok simplified ↔
      ∃ type, TypeName.Derives simplifier.namespaces type text.toList simplified.toList ∧
        type.nesting ≤ TypeName.maxNesting) ∧
    ∀ first second firstShown secondShown,
      TypeName.Derives simplifier.namespaces first text.toList firstShown →
      TypeName.Derives simplifier.namespaces second text.toList secondShown →
        first = second ∧ firstShown = secondShown := by
  have hlength := TypeName.length_le_maxArity htext
  refine ⟨fun simplified => ?_, fun first second firstShown secondShown hfirst hsecond =>
    hfirst.unique hsecond hlength⟩
  have hread : ∀ type, TypeName.read text = .ok type ↔ _ :=
    fun type => TypeName.read_eq_ok_iff simplifier.namespaces htext
  constructor
  · intro hsimplified
    rw [simplify?] at hsimplified
    cases hresult : TypeName.read text with
    | error violation =>
        rw [hresult] at hsimplified
        exact nomatch hsimplified
    | ok type =>
        rw [hresult] at hsimplified
        cases hsimplified
        obtain ⟨shown, hderives, hnesting⟩ := (hread type).mp hresult
        rw [String.toList_ofList, hderives.rendering]
        exact ⟨type, hderives, hnesting⟩
  · rintro ⟨type, hderives, hnesting⟩
    rw [simplify?, (hread type).mpr ⟨_, hderives, hnesting⟩]
    show Except.ok (String.ofList (type.rendering simplifier.namespaces)) = _
    rw [hderives.rendering, String.ofList_toList]

theorem simplify?_nested_derives :
    "System.List`1<System.Lazy`1<System.Int32>[]>".utf8ByteSize < 2 ^ 64 ∧
      ∃ type, TypeName.Derives (ofNamespaces ["System"]).namespaces type
        "System.List`1<System.Lazy`1<System.Int32>[]>".toList "List<Lazy<Int32>[]>".toList ∧
          type.nesting ≤ TypeName.maxNesting := by
  have htext : "System.List`1<System.Lazy`1<System.Int32>[]>".utf8ByteSize < 2 ^ 64 := by
    decide +kernel
  obtain ⟨haccepts, -⟩ := simplify?_eq_ok_iff_derives (ofNamespaces ["System"]) _ htext
  exact ⟨htext, (haccepts "List<Lazy<Int32>[]>").mp (by decide +kernel)⟩

end Simplifier

end ActivityCatalogue
