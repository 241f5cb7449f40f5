import ActivityCatalogue.Proofs.TypeReading

/-!
# What the reader has been through

The reader carries a bound on the nesting of template arguments and a counter of further
arguments.  Once it has accepted a type neither matters any more.  `Reading type start next` keeps
what is left: which parts were read between which places, part by part along the syntax tree.

Compared with the derivations of the grammar a reading also knows where each part stands and
what stood behind it, and it needs no bound on the length of the text.
-/

namespace ActivityCatalogue

namespace TypeName

mutual

/-- A name, a template part and brackets, read one behind the other. -/
inductive Reading : TypeName → Cursor → Cursor → Prop
  | type {name : Option QualifiedName} {arguments : List TypeName} {arrays : Nat}
      {start behindName behindTemplate next : Cursor}
      (hname : readName start = .ok (name, behindName))
      (htemplate : TemplateReading arguments behindName behindTemplate)
      (harrays : readArrays behindTemplate.offset behindTemplate.rest = .ok (arrays, next)) :
      Reading (mk name arguments arrays) start next

/-- An announced number and arguments between angle brackets, or nothing. -/
inductive TemplateReading : List TypeName → Cursor → Cursor → Prop
  | absent {cursor : Cursor} : TemplateReading [] cursor cursor
  | present {arguments : List TypeName} {arity : Nat}
      {start behindMark behindArity opened last next : Cursor}
      (hmark : start.Passes [Char.ofNat 0x60] behindMark)
      (harity : readArity behindMark = .ok (arity, behindArity))
      (hopening : behindArity.Passes ['<'] opened)
      (harguments : ArgumentsReading arguments opened last)
      (hclosing : last.Passes ['>'] next) :
      TemplateReading arguments start next

/-- One argument or more with commas between them, none of them empty. -/
inductive ArgumentsReading : List TypeName → Cursor → Cursor → Prop
  | last {type : TypeName} {start next : Cursor}
      (htype : Reading type start next) (hnonempty : type.isEmpty = false) :
      ArgumentsReading [type] start next
  | more {type : TypeName} {types : List TypeName} {start behind opened next : Cursor}
      (htype : Reading type start behind) (hnonempty : type.isEmpty = false)
      (hcomma : behind.Passes [','] opened) (hrest : ArgumentsReading types opened next) :
      ArgumentsReading (type :: types) start next

end

theorem ArgumentsReading.ne_nil {types : List TypeName} {start next : Cursor} :
    ArgumentsReading types start next → types ≠ []
  | .last _ _ => List.cons_ne_nil _ _
  | .more _ _ _ _ => List.cons_ne_nil _ _

theorem TemplateReading.eq_of_nil {start next : Cursor} :
    TemplateReading [] start next → next = start
  | .absent => rfl
  | .present _ _ _ harguments _ => nomatch harguments

/-! ## Every accepted type has a reading -/

/-- Whatever the reader of types accepts has a reading. -/
def YieldsReadings (reader : TypeReader) : Prop :=
  ∀ cursor type next, reader cursor = .ok (type, next) → Reading type cursor next

theorem readArguments_reading {reader : TypeReader} (hreader : YieldsReadings reader)
    {further : Nat} {cursor next : Cursor} {types : List TypeName}
    (hread : readArguments (readArgumentWith reader) further cursor = .ok (types, next)) :
    ArgumentsReading types cursor next := by
  have hargument : ∀ {cursor type next}, readArgumentWith reader cursor = .ok (type, next) →
      Reading type cursor next ∧ type.isEmpty = false := by
    intro cursor type next hread
    obtain ⟨⟨argument, behind⟩, hargument, hread⟩ := bind_eq_ok_iff.mp hread
    dsimp only at hread
    split_ifs at hread with hempty
    cases hread
    exact ⟨hreader _ _ _ hargument, Bool.eq_false_of_not_eq_true hempty⟩
  induction further generalizing cursor types with
  | zero =>
      obtain ⟨⟨type, behind⟩, hfirst, hread⟩ := bind_eq_ok_iff.mp hread
      cases hread
      obtain ⟨htype, hnonempty⟩ := hargument hfirst
      exact .last htype hnonempty
  | succ further ih =>
      obtain ⟨⟨type, behind⟩, hfirst, hread⟩ := bind_eq_ok_iff.mp hread
      obtain ⟨opened, hcomma, hread⟩ := bind_eq_ok_iff.mp hread
      obtain ⟨⟨others, last⟩, hothers, hread⟩ := bind_eq_ok_iff.mp hread
      cases hread
      obtain ⟨htype, hnonempty⟩ := hargument hfirst
      exact .more htype hnonempty (Cursor.eat_eq_ok_iff.mp hcomma) (ih hothers)

theorem readTypeWith_reading {argument : TypeReader}
    (hargument : ∀ {further cursor types next},
      readArguments argument further cursor = .ok (types, next) →
        ArgumentsReading types cursor next) :
    YieldsReadings (readTypeWith argument) := by
  intro cursor type next hread
  obtain ⟨⟨name, behindName⟩, hname, hread⟩ := bind_eq_ok_iff.mp hread
  obtain ⟨⟨arguments, behindTemplate⟩, htemplate, hread⟩ := bind_eq_ok_iff.mp hread
  obtain ⟨⟨arrays, last⟩, harrays, hread⟩ := bind_eq_ok_iff.mp hread
  cases hread
  refine .type hname ?_ harrays
  rw [readTemplate] at htemplate
  cases hmark : behindName.eat? (Char.ofNat 0x60) with
  | none =>
      rw [hmark] at htemplate
      cases htemplate
      exact .absent
  | some behindMark =>
      rw [hmark] at htemplate
      obtain ⟨⟨arity, behindArity⟩, harity, htemplate⟩ := bind_eq_ok_iff.mp htemplate
      obtain ⟨opened, hopening, htemplate⟩ := bind_eq_ok_iff.mp htemplate
      obtain ⟨⟨types, behindTypes⟩, htypes, htemplate⟩ := bind_eq_ok_iff.mp htemplate
      obtain ⟨closed, hclosing, htemplate⟩ := bind_eq_ok_iff.mp htemplate
      cases htemplate
      exact .present (Cursor.eat?_eq_some_iff.mp hmark) harity (Cursor.eat_eq_ok_iff.mp hopening)
        (hargument htypes) (Cursor.eat_eq_ok_iff.mp hclosing)

theorem readType_reading (levels : Nat) : YieldsReadings (readType levels) := by
  induction levels with
  | zero =>
      -- at the bottom every argument is refused
      refine readTypeWith_reading fun {further _ _ _} hread => ?_
      cases further with
      | zero => exact nomatch hread
      | succ further => exact nomatch hread
  | succ levels ih => exact readTypeWith_reading (readArguments_reading ih)

/-- A text that is a type has been read from its start to its end. -/
theorem read_reading {text : String} {type : TypeName} (hread : read text = .ok type) :
    ∃ next, next.rest = [] ∧ Reading type (.start text) next := by
  obtain ⟨⟨found, last⟩, hfound, hread⟩ := bind_eq_ok_iff.mp hread
  dsimp only at hread
  split at hread
  · next hend =>
    cases hread
    exact ⟨last, hend, readType_reading maxNesting _ _ _ hfound⟩
  · exact nomatch hread

end TypeName

end ActivityCatalogue
