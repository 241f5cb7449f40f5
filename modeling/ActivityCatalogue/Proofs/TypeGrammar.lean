import ActivityCatalogue.TypeName.Reader

/-!
# The grammar of type names

```text
Type         = [Name] [TemplatePart] [ArrayPart]
Name         = Segment (Separator Segment)*          Separator = '.' | '/'
TemplatePart = backtick Arity '<' Type (',' Type)* '>'
ArrayPart    = '[]' ('[]')*
```

`Derives namespaces type text shown` says that `text` derives from `Type`, that
`type` is the derivation, and that `shown` is what the derivation denotes when
names in one of the `namespaces` are cut to their last segment.  The rules know
nothing of a reader: they do not say how far a name goes, and a template part
may nest as deep as it likes.  How deep it does is `nesting`.
-/

namespace ActivityCatalogue

namespace TypeName

/-! ## Names -/

/-- A letter or underscore, then letters, numerals and underscores. -/
def IsSegment (text : List Char) : Prop :=
  ∃ lead rest, text = lead :: rest ∧ isSegmentLead lead = true ∧
    ∀ c ∈ rest, isSegmentChar c = true

/-- Segments with separators between them.  What a name denotes depends on the
text before its last separator. -/
inductive DerivesName (namespaces : NameSet) :
    QualifiedName → (text shown : List Char) → Prop
  | segment {text : List Char} (hsegment : IsSegment text) :
      DerivesName namespaces ⟨text, []⟩ text text
  | qualified {qualifier : QualifiedName} {text shown last : List Char} {separator : Char}
      (hqualifier : DerivesName namespaces qualifier text shown)
      (hseparator : separator = '.' ∨ separator = '/') (hlast : IsSegment last) :
      DerivesName namespaces ⟨qualifier.first, qualifier.more ++ [(separator, last)]⟩
        (text ++ separator :: last)
        (if namespaces.contains (String.ofList text) then last else text ++ separator :: last)

/-- A name, or nothing. -/
inductive DerivesNamePart (namespaces : NameSet) :
    Option QualifiedName → (text shown : List Char) → Prop
  | absent : DerivesNamePart namespaces none [] []
  | present {name : QualifiedName} {text shown : List Char}
      (hname : DerivesName namespaces name text shown) :
      DerivesNamePart namespaces (some name) text shown

/-! ## Types -/

/-- Decimal digits without a leading zero whose value is `count`. -/
structure IsArity (digits : List Char) (count : Nat) : Prop where
  nonempty : digits ≠ []
  digit : ∀ c ∈ digits, c.isDigit = true
  leading : digits.head? ≠ some '0'
  value : Nat.ofDigitChars 10 digits 0 = count

mutual

/-- A type: its name, its template part and its array brackets. -/
inductive Derives (namespaces : NameSet) : TypeName → (text shown : List Char) → Prop
  | type {name : Option QualifiedName} {arguments : List TypeName} {arrays : Nat}
      {nameText nameShown templateText templateShown : List Char}
      (hname : DerivesNamePart namespaces name nameText nameShown)
      (htemplate : DerivesTemplate namespaces arguments templateText templateShown) :
      Derives namespaces (mk name arguments arrays)
        (nameText ++ templateText ++ brackets arrays)
        (nameShown ++ templateShown ++ brackets arrays)

/-- A template part, or nothing.  The number of arguments is not shown. -/
inductive DerivesTemplate (namespaces : NameSet) :
    List TypeName → (text shown : List Char) → Prop
  | absent : DerivesTemplate namespaces [] [] []
  | present {arguments : List TypeName} {digits text shown : List Char}
      (harity : IsArity digits arguments.length)
      (harguments : DerivesArguments namespaces arguments text shown) :
      DerivesTemplate namespaces arguments
        (Char.ofNat 0x60 :: digits ++ '<' :: text ++ ['>']) ('<' :: shown ++ ['>'])

/-- One argument or more, with commas between them; no argument is empty. -/
inductive DerivesArguments (namespaces : NameSet) :
    List TypeName → (text shown : List Char) → Prop
  | last {type : TypeName} {text shown : List Char}
      (htype : Derives namespaces type text shown) (hnonempty : text ≠ []) :
      DerivesArguments namespaces [type] text shown
  | more {type : TypeName} {types : List TypeName} {text shown rest restShown : List Char}
      (htype : Derives namespaces type text shown) (hnonempty : text ≠ [])
      (hrest : DerivesArguments namespaces types rest restShown) :
      DerivesArguments namespaces (type :: types) (text ++ ',' :: rest) (shown ++ ',' :: restShown)

end

/-! ## Nesting -/

mutual

/-- How many levels of template arguments a type has. -/
def nesting : TypeName → Nat
  | mk _ arguments _ => argumentNesting arguments

/-- How many levels template arguments open: one, and those of the deepest. -/
def argumentNesting : List TypeName → Nat
  | [] => 0
  | type :: types => max (nesting type + 1) (argumentNesting types)

end

end TypeName

end ActivityCatalogue
