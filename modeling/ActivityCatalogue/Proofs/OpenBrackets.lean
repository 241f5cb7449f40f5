import ActivityCatalogue.Proofs.TypeReading

/-!
# Open angle brackets

How deep the template arguments of a type nest shows in its text: it is the
greatest number of angle brackets that are open at once.  The text of a whole
type closes what it opens, and opens no more than the type nests
(`Derives.balanced`).

The start of a text that opens too many brackets ends where it does so for the
first time (`Reaches`).  Such a start is found from the inside: within one more
pair of brackets, and behind arguments that open fewer of them, it is one again.
-/

namespace ActivityCatalogue

namespace TypeName

variable {namespaces : NameSet}

/-! ## Counting -/

/-- The number of angle brackets that are open behind the text, if `already` are open in
front of it. -/
def unclosed (already : Nat) (text : List Char) : Nat :=
  text.foldl (fun depth c => if c = '<' then depth + 1 else if c = '>' then depth - 1 else depth)
    already

theorem unclosed_append (already : Nat) (first second : List Char) :
    unclosed already (first ++ second) = unclosed (unclosed already first) second :=
  List.foldl_append

theorem unclosed_less (already : Nat) (rest : List Char) :
    unclosed already ('<' :: rest) = unclosed (already + 1) rest := rfl

theorem unclosed_plain {c : Char} (hless : c ≠ '<') (hgreater : c ≠ '>') (already : Nat)
    (rest : List Char) : unclosed already (c :: rest) = unclosed already rest := by
  rw [unclosed, List.foldl_cons, if_neg hless, if_neg hgreater]
  rfl

/-- Fewer than `bound` brackets are open wherever the text goes on. -/
def StaysBelow (bound already : Nat) (text : List Char) : Prop :=
  ∀ before after, text = before ++ after → after ≠ [] → unclosed already before < bound

theorem staysBelow_nil (bound already : Nat) : StaysBelow bound already [] := by
  intro before after hsplit hafter
  exact absurd (List.append_eq_nil_iff.mp hsplit.symm).2 hafter

theorem StaysBelow.append {bound already : Nat} {first second : List Char}
    (hfirst : StaysBelow bound already first)
    (hsecond : StaysBelow bound (unclosed already first) second) :
    StaysBelow bound already (first ++ second) := by
  intro before after hsplit hafter
  rcases List.append_eq_append_iff.mp hsplit with ⟨middle, rfl, hrest⟩ | ⟨middle, rfl, rfl⟩
  · rw [unclosed_append]
    exact hsecond middle after hrest hafter
  · by_cases hmiddle : middle = []
    · subst hmiddle
      rw [List.append_nil] at hsecond
      exact hsecond [] second rfl hafter
    · exact hfirst before middle rfl hmiddle

theorem staysBelow_singleton {bound already : Nat} (halready : already < bound) (c : Char) :
    StaysBelow bound already [c] := by
  intro before after hsplit hafter
  cases before with
  | nil => exact halready
  | cons d before =>
      have htail := (List.cons.inj hsplit).2
      exact absurd (List.append_eq_nil_iff.mp htail.symm).2 hafter

/-! ## Texts that close what they open -/

/-- The text closes what it opens, and opens no more than `levels` brackets at once. -/
structure Balanced (levels : Nat) (text : List Char) : Prop where
  closed : ∀ already, unclosed already text = already
  below : ∀ bound already, already + levels < bound → StaysBelow bound already text

theorem Balanced.mono {levels more : Nat} {text : List Char} (htext : Balanced levels text)
    (hlevels : levels ≤ more) : Balanced more text where
  closed := htext.closed
  below := fun bound already hbound => htext.below bound already (by omega)

theorem balanced_nil (levels : Nat) : Balanced levels [] :=
  ⟨fun _ => rfl, fun bound already _ => staysBelow_nil bound already⟩

theorem Balanced.append {levels : Nat} {first second : List Char}
    (hfirst : Balanced levels first) (hsecond : Balanced levels second) :
    Balanced levels (first ++ second) where
  closed := fun already => by rw [unclosed_append, hfirst.closed, hsecond.closed]
  below := fun bound already hbound => by
    refine (hfirst.below bound already hbound).append ?_
    rw [hfirst.closed]
    exact hsecond.below bound already hbound

/-- Characters that are no angle brackets leave everything as it is. -/
theorem balanced_of_plain (levels : Nat) {text : List Char}
    (htext : ∀ c ∈ text, c ≠ '<' ∧ c ≠ '>') : Balanced levels text := by
  induction text with
  | nil => exact balanced_nil levels
  | cons c text ih =>
      obtain ⟨⟨hless, hgreater⟩, hrest⟩ := List.forall_mem_cons.mp htext
      have hc : Balanced levels [c] := by
        refine ⟨fun already => unclosed_plain hless hgreater already [], ?_⟩
        intro bound already hbound
        exact staysBelow_singleton (by omega) c
      exact hc.append (ih hrest)

theorem Balanced.enclose {levels : Nat} {text : List Char} (htext : Balanced levels text) :
    Balanced (levels + 1) ('<' :: text ++ ['>']) where
  closed := fun already => by
    rw [List.cons_append, unclosed_less, unclosed_append, htext.closed]
    rfl
  below := fun bound already hbound => by
    show StaysBelow bound already (['<'] ++ (text ++ ['>']))
    refine (staysBelow_singleton (by omega) '<').append ?_
    rw [unclosed_less]
    refine (htext.below bound (already + 1) (by omega)).append ?_
    rw [htext.closed]
    exact staysBelow_singleton (by omega) '>'

theorem isNameChar_ne_angle {c : Char} (hc : isNameChar c = true) : c ≠ '<' ∧ c ≠ '>' := by
  constructor
  · rintro rfl
    exact absurd hc (by decide)
  · rintro rfl
    exact absurd hc (by decide)

theorem isDigit_ne_angle {c : Char} (hc : c.isDigit = true) : c ≠ '<' ∧ c ≠ '>' := by
  constructor
  · rintro rfl
    exact absurd hc (by decide)
  · rintro rfl
    exact absurd hc (by decide)

theorem balanced_singleton (levels : Nat) {c : Char} (hc : c ≠ '<' ∧ c ≠ '>') :
    Balanced levels [c] :=
  balanced_of_plain levels (List.forall_mem_singleton.mpr hc)

theorem balanced_brackets (levels arrays : Nat) : Balanced levels (brackets arrays) := by
  refine balanced_of_plain levels fun c hc => ?_
  rcases mem_brackets hc with rfl | rfl
  · decide
  · decide

theorem DerivesNamePart.balanced {name : Option QualifiedName} {text shown : List Char}
    (hname : DerivesNamePart namespaces name text shown) (levels : Nat) : Balanced levels text :=
  balanced_of_plain levels fun c hc => isNameChar_ne_angle (hname.isNameChar c hc)

theorem IsArity.balanced {digits : List Char} {count : Nat} (harity : IsArity digits count)
    (levels : Nat) : Balanced levels digits :=
  balanced_of_plain levels fun c hc => isDigit_ne_angle (harity.digit c hc)

mutual

/-- The text of a type opens at most as many brackets at once as the type nests. -/
theorem Derives.balanced {type : TypeName} {text shown : List Char} :
    Derives namespaces type text shown → Balanced type.nesting text
  | .type hname htemplate =>
      ((hname.balanced _).append (DerivesTemplate.balanced htemplate)).append
        (balanced_brackets _ _)
termination_by structural derivation => derivation

theorem DerivesTemplate.balanced {arguments : List TypeName} {text shown : List Char} :
    DerivesTemplate namespaces arguments text shown → Balanced (argumentNesting arguments) text
  | .absent => balanced_nil _
  | .present harity harguments => by
      obtain ⟨levels, hlevels, htext⟩ := DerivesArguments.balanced harguments
      rw [hlevels, List.append_assoc]
      exact ((balanced_singleton _ (by decide)).append (harity.balanced _)).append htext.enclose
termination_by structural derivation => derivation

/-- The text of arguments opens one bracket less: theirs stand around it. -/
theorem DerivesArguments.balanced {types : List TypeName} {text shown : List Char} :
    DerivesArguments namespaces types text shown →
      ∃ levels, argumentNesting types = levels + 1 ∧ Balanced levels text
  | .last htype _ => ⟨_, rfl, Derives.balanced htype⟩
  | .more htype _ hrest => by
      obtain ⟨levels, hlevels, hrestText⟩ := DerivesArguments.balanced hrest
      refine ⟨max _ levels, by rw [argumentNesting, hlevels, Nat.add_max_add_right], ?_⟩
      have htypeText := (Derives.balanced htype).mono (Nat.le_max_left _ levels)
      have hcomma : ',' ≠ '<' ∧ ',' ≠ '>' := by decide
      exact htypeText.append
        ((balanced_singleton _ hcomma).append (hrestText.mono (Nat.le_max_right _ levels)))
termination_by structural derivation => derivation

end

/-! ## Texts that open too many -/

/-- At the end of the text, and nowhere before it, there are `rise` more open brackets than in
front of it. -/
structure Reaches (rise : Nat) (text : List Char) : Prop where
  opened : ∀ already, unclosed already text = already + rise
  first : ∀ already, StaysBelow (already + rise) already text

theorem reaches_nil : Reaches 0 [] :=
  ⟨fun _ => rfl, fun already => staysBelow_nil _ already⟩

theorem Reaches.opening {rise : Nat} {text : List Char} (htext : Reaches rise text) :
    Reaches (rise + 1) ('<' :: text) where
  opened := fun already => by
    rw [unclosed_less, htext.opened]
    omega
  first := fun already => by
    have hinner := htext.first (already + 1)
    rw [Nat.add_right_comm, Nat.add_assoc] at hinner
    exact (staysBelow_singleton (by omega) '<').append hinner

theorem Reaches.behind {levels rise : Nat} {before text : List Char}
    (hbefore : Balanced levels before) (hlevels : levels < rise) (htext : Reaches rise text) :
    Reaches rise (before ++ text) where
  opened := fun already => by rw [unclosed_append, hbefore.closed, htext.opened]
  first := fun already => by
    refine (hbefore.below _ already (by omega)).append ?_
    rw [hbefore.closed]
    exact htext.first already

/-- Such a text ends with the bracket that it takes to get there. -/
theorem Reaches.ends {rise : Nat} {text : List Char} (htext : Reaches (rise + 1) text) :
    ∃ before, text = before ++ ['<'] := by
  have hopened := htext.opened 0
  rcases List.eq_nil_or_concat text with rfl | ⟨before, c, rfl⟩
  · exact absurd hopened (by rw [unclosed, List.foldl_nil]; omega)
  · rw [List.concat_eq_append] at htext hopened ⊢
    have hfirst := htext.first 0 before [c] rfl (List.cons_ne_nil _ _)
    by_cases hless : c = '<'
    · exact ⟨before, by rw [hless]⟩
    · -- any other character leaves no more brackets open than there were
      rw [unclosed_append, unclosed, List.foldl_cons, List.foldl_nil, if_neg hless] at hopened
      split at hopened
      · omega
      · omega

end TypeName

end ActivityCatalogue
