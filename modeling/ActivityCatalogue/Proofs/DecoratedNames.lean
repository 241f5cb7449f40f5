import ActivityCatalogue.Proofs.Resolution

/-!
# Decorated names

A class shows a property of an ancestor under the name of that ancestor, from which it leaves
its own namespace out.  So an ancestor in that namespace and one outside of it come under one
name if they differ in just the namespace: for a class of `Acme`, both `Acme.Base` and the
`Base` without a namespace become `Base`.  Such twins (`IsTwin`) are the only ancestors that
decoration does not keep apart (`decorate_eq_iff_isTwin`).

Of twins that declare a property of one name, the class shows the one of the nearest, and the
others are lost to it.  Which properties are shown is therefore a matter of the twins that
stand nearer on the walk (`shownFrom_iff`).
-/

namespace ActivityCatalogue

variable {entry ancestor first second : ClassEntry} {name other : String}

/-! ## Relative names -/

/-- The name of an ancestor, without the namespace of the class that shows it. -/
def relativeName (entry ancestor : ClassEntry) : String :=
  if entry.namespaceName.toList.isPrefixOf ancestor.simpleName.toList then
    String.ofList (ancestor.simpleName.toList.drop entry.namespaceName.toList.length)
  else ancestor.simpleName

/-- One ancestor has the name of the other behind the namespace of the class, and the other one
does not stand in that namespace. -/
def IsCounterpart (entry inner outer : ClassEntry) : Prop :=
  inner.simpleName = entry.namespaceName ++ outer.simpleName ∧
    ¬ entry.namespaceName.toList <+: outer.simpleName.toList

/-- Two ancestors that differ in just the namespace of the class. -/
def IsTwin (entry first second : ClassEntry) : Prop :=
  IsCounterpart entry first second ∨ IsCounterpart entry second first

instance : Decidable (IsTwin entry first second) :=
  inferInstanceAs (Decidable ((_ ∧ _) ∨ (_ ∧ _)))

theorem decorate_eq (entry ancestor : ClassEntry) (name : String) :
    decorate entry ancestor name = relativeName entry ancestor ++ "::" ++ name := rfl

/-- The namespace is left out, or it was not there. -/
theorem relativeName_cases (entry ancestor : ClassEntry) :
    ancestor.simpleName = entry.namespaceName ++ relativeName entry ancestor ∨
    ¬ entry.namespaceName.toList <+: ancestor.simpleName.toList ∧
      relativeName entry ancestor = ancestor.simpleName := by
  by_cases hinside : entry.namespaceName.toList <+: ancestor.simpleName.toList
  · refine Or.inl ?_
    obtain ⟨rest, hname⟩ := hinside
    rw [relativeName, if_pos (List.isPrefixOf_iff_prefix.mpr ⟨rest, hname⟩), ← hname,
      List.drop_left, ← String.toList_inj, String.toList_append, String.toList_ofList, hname]
  · refine Or.inr ⟨hinside, ?_⟩
    rw [relativeName, if_neg (mt List.isPrefixOf_iff_prefix.mp hinside)]

theorem toList_prefix_append (front rest : String) : front.toList <+: (front ++ rest).toList := by
  rw [String.toList_append]
  exact List.prefix_append _ _

theorem relativeName_of_isCounterpart {inner outer : ClassEntry}
    (hcounterpart : IsCounterpart entry inner outer) :
    relativeName entry inner = relativeName entry outer := by
  obtain ⟨hname, houtside⟩ := hcounterpart
  have houter : relativeName entry outer = outer.simpleName := by
    rcases relativeName_cases entry outer with hinside | ⟨-, hsame⟩
    · rw [hinside] at houtside
      exact absurd (toList_prefix_append _ _) houtside
    · exact hsame
  rcases relativeName_cases entry inner with hinside | ⟨hnot, -⟩
  · rw [houter]
    exact (String.append_right_inj _).mp (hinside.symm.trans hname)
  · rw [hname] at hnot
    exact absurd (toList_prefix_append _ _) hnot

/-- Relative names tell ancestors apart, except for twins. -/
theorem relativeName_eq_iff :
    relativeName entry first = relativeName entry second ↔
      first.simpleName = second.simpleName ∨ IsTwin entry first second := by
  constructor
  · intro heq
    rcases relativeName_cases entry first with hfirst | ⟨hfirstOutside, hfirst⟩
    · rcases relativeName_cases entry second with hsecond | ⟨hsecondOutside, hsecond⟩
      · exact Or.inl (by rw [hfirst, hsecond, heq])
      · exact Or.inr (Or.inl ⟨by rw [hfirst, heq, hsecond], hsecondOutside⟩)
    · rcases relativeName_cases entry second with hsecond | ⟨-, hsecond⟩
      · exact Or.inr (Or.inr ⟨by rw [hsecond, ← heq, hfirst], hfirstOutside⟩)
      · exact Or.inl (by rw [← hfirst, heq, hsecond])
  · rintro (hname | hcounterpart | hcounterpart)
    · rw [relativeName, relativeName, hname]
    · exact relativeName_of_isCounterpart hcounterpart
    · exact (relativeName_of_isCounterpart hcounterpart).symm

/-- Read from behind, a decorated name is the plain name up to the first colon. -/
theorem takeWhile_reverse_decorate (entry ancestor : ClassEntry) (hname : ':' ∉ name.toList) :
    (decorate entry ancestor name).toList.reverse.takeWhile (· != ':') =
      name.toList.reverse := by
  have hplain : ∀ letter ∈ name.toList.reverse, (letter != ':') = true := by
    intro letter hletter
    rw [bne_iff_ne]
    rintro rfl
    exact hname (List.mem_reverse.mp hletter)
  have hcolons : "::".toList = [':', ':'] := by decide
  rw [decorate_eq, String.toList_append, String.toList_append, hcolons, List.reverse_append,
    List.takeWhile_append_of_pos hplain, List.reverse_append]
  exact List.append_nil _

theorem decorate_eq_decorate_iff (hname : ':' ∉ name.toList) (hother : ':' ∉ other.toList) :
    decorate entry first name = decorate entry second other ↔
      relativeName entry first = relativeName entry second ∧ name = other := by
  constructor
  · intro heq
    have hbackwards : name.toList.reverse = other.toList.reverse := by
      rw [← takeWhile_reverse_decorate entry first hname, heq,
        takeWhile_reverse_decorate entry second hother]
    obtain rfl : name = other := String.toList_inj.mp (List.reverse_inj.mp hbackwards)
    rw [decorate_eq, decorate_eq, String.append_left_inj, String.append_left_inj] at heq
    exact ⟨heq, rfl⟩
  · rintro ⟨hrelative, rfl⟩
    rw [decorate_eq, decorate_eq, hrelative]

namespace Candidate

variable {kept candidates : List Candidate} {candidate : Candidate} {ancestors : List ClassEntry}

/-- What is kept was not suppressed as it was met. -/
theorem exists_of_mem_survivors (hkept : candidate ∈ survivors entry candidates) :
    ∃ before after, candidates = before ++ candidate :: after ∧
      ¬ Suppressed entry (survivors entry before) candidate := by
  induction candidates using List.reverseRecOn with
  | nil => exact nomatch hkept
  | append_singleton candidates last ih =>
      have hearlier : candidate ∈ survivors entry candidates →
          ∃ before after, candidates ++ [last] = before ++ candidate :: after ∧
            ¬ Suppressed entry (survivors entry before) candidate := by
        intro hbefore
        obtain ⟨before, after, rfl, hpasses⟩ := ih hbefore
        exact ⟨before, after ++ [last], List.append_assoc _ _ _, hpasses⟩
      rw [survivors_concat, keep] at hkept
      split at hkept
      · exact hearlier hkept
      · next hnew =>
        rcases List.mem_append.mp hkept with hbefore | hlast
        · exact hearlier hbefore
        · obtain rfl := List.mem_singleton.mp hlast
          exact ⟨candidates, [], rfl, fun hsuppressed => hnew (Or.inl hsuppressed)⟩

theorem declared_mem_of_mem_all (hcandidate : candidate ∈ all entry ancestors)
    (hancestor : candidate.ancestor? = some ancestor) :
    candidate.declared ∈ ancestor.declared := by
  obtain ⟨-, hhandedDown⟩ := mem_handedDown_of_mem_all hcandidate hancestor
  obtain ⟨declared, hdeclared, rfl⟩ := List.mem_map.mp hhandedDown
  exact (List.mem_filter.mp hdeclared).1

theorem mem_all_of_declared {declared : DeclaredProperty} (hancestor : ancestor ∈ ancestors)
    (hdeclared : declared ∈ ancestor.declared) :
    (⟨some ancestor, declared⟩ : Candidate) ∈ all entry ancestors := by
  refine mem_all_iff.mpr (Or.inr ⟨ancestor, hancestor, List.mem_map_of_mem ?_⟩)
  rwa [Catalogue.filter_declared]

/-- What is shown under the name of an inherited property is inherited, from a class with the
same relative name. -/
theorem exists_ancestor_of_displayName (hplain : ':' ∉ candidate.declared.name.toList)
    (hname : ':' ∉ name.toList)
    (hshown : candidate.displayName entry = decorate entry ancestor name) :
    ∃ source, candidate.ancestor? = some source ∧
      relativeName entry source = relativeName entry ancestor ∧ candidate.declared.name = name := by
  cases hsource : candidate.ancestor? with
  | none =>
      rw [displayName, hsource] at hshown
      have hcolons := Catalogue.colons_infix_decorate entry ancestor name
      rw [← hshown] at hcolons
      exact absurd (hcolons.subset (by decide)) hplain
  | some source =>
      rw [displayName, hsource] at hshown
      exact ⟨source, rfl, (decorate_eq_decorate_iff hplain hname).mp hshown⟩

end Candidate

namespace Catalogue

open Candidate

variable {catalogue : Catalogue}

/-! ## What is shown from an ancestor -/

/-- The ancestor itself has an eligible property of that name whose getter is not virtual. -/
def DeclaresPlainly (ancestor : ClassEntry) (name : String) : Prop :=
  ∃ declared ∈ ancestor.declared, declared.name = name ∧ declared.getterIsVirtual = false

/-- The ancestor has a property of that name which the class does not override. -/
def HandsDown (entry ancestor : ClassEntry) (name : String) : Prop :=
  ∃ declared ∈ ancestor.declared, declared.name = name ∧
    ¬ (declared.getterIsVirtual = true ∧ ∃ own ∈ entry.declared, own.name = name)

/-- The class shows, under the decorated name, a property that the ancestor owns. -/
def ShownFrom (catalogue : Catalogue) (entry ancestor : ClassEntry) (name : String) : Prop :=
  ∃ property ∈ catalogue.resolve entry,
    property.displayName = decorate entry ancestor name ∧
      property.owningClass = ancestor.simpleName

/-- The walk comes to the ancestor before it comes to any twin that hands a property of that
name down. -/
def ComesFirst (catalogue : Catalogue) (entry ancestor : ClassEntry) (name : String) : Prop :=
  ∃ nearer further, catalogue.visited entry = nearer ++ ancestor :: further ∧
    ∀ other ∈ nearer, IsTwin entry other ancestor → ¬ HandsDown entry other name

instance : Decidable (DeclaresPlainly ancestor name) :=
  inferInstanceAs (Decidable (∃ _ ∈ _, _))

theorem DeclaresPlainly.handsDown (hdeclares : DeclaresPlainly ancestor name) :
    HandsDown entry ancestor name := by
  obtain ⟨declared, hdeclared, hname, hplain⟩ := hdeclares
  refine ⟨declared, hdeclared, hname, fun hoverridden => ?_⟩
  rw [hplain] at hoverridden
  exact nomatch hoverridden.1

theorem eq_of_simpleName_eq (hfirst : first ∈ catalogue.visited entry)
    (hsecond : second ∈ catalogue.visited entry) (hname : first.simpleName = second.simpleName) :
    first = second := by
  obtain ⟨_, -, hfirst⟩ := List.mem_filterMap.mp hfirst
  obtain ⟨_, -, hsecond⟩ := List.mem_filterMap.mp hsecond
  exact (ascendingBy_entries catalogue).eq_of_name_eq (mem_entries_of_visitedAfter hfirst)
    (mem_entries_of_visitedAfter hsecond) hname

theorem decorate_eq_iff_isTwin (hfirst : first ∈ catalogue.visited entry)
    (hsecond : second ∈ catalogue.visited entry) (hne : first ≠ second) :
    decorate entry first name = decorate entry second name ↔ IsTwin entry first second := by
  rw [decorate_eq, decorate_eq, String.append_left_inj, String.append_left_inj,
    relativeName_eq_iff]
  exact or_iff_right fun hname => hne (eq_of_simpleName_eq hfirst hsecond hname)

/-- One decorated name shows one property. -/
theorem not_shownFrom_both (hfirst : first ∈ catalogue.visited entry)
    (hsecond : second ∈ catalogue.visited entry) (hne : first ≠ second)
    (hsame : decorate entry first name = decorate entry second name) :
    ¬ (catalogue.ShownFrom entry first name ∧ catalogue.ShownFrom entry second name) := by
  rintro ⟨⟨property, hproperty, hdisplay, hfirstOwns⟩, shown, hshown, hshownDisplay, hsecondOwns⟩
  have hascending := ascendingBy_values_propertyMap entry (catalogue.ancestors entry)
  obtain rfl : property = shown := hascending.eq_of_name_eq hproperty hshown
    (hdisplay.trans (hsame.trans hshownDisplay.symm))
  exact hne (eq_of_simpleName_eq hfirst hsecond (hfirstOwns.symm.trans hsecondOwns))

section Plain

variable (hplain : ∀ candidate ∈ catalogue.candidates entry, ':' ∉ candidate.declared.name.toList)
include hplain

/-- Where plain names hold no colons, an inherited candidate is suppressed exactly if the class
overrides it, wherever it is met. -/
theorem suppressed_iff_of_plain {before after : List Candidate} {candidate : Candidate}
    (hsplit : catalogue.candidates entry = before ++ candidate :: after)
    (hancestor : candidate.ancestor? = some ancestor) :
    Suppressed entry (survivors entry before) candidate ↔
      candidate.declared.getterIsVirtual = true ∧
        ∃ own ∈ entry.declared, own.name = candidate.declared.name := by
  have hcandidate : candidate ∈ catalogue.candidates entry :=
    hsplit ▸ List.mem_append_right _ List.mem_cons_self
  have hcolons : ¬ "::".toList <:+: candidate.declared.name.toList := fun hheld =>
    hplain candidate hcandidate (hheld.subset (by decide))
  rw [suppressed_iff_own hsplit (hancestor ▸ rfl) hcolons, filter_declared]

/-- What one of the first classes of a walk hands down is shown from it, or from a twin of it
among those classes. -/
theorem exists_shownFrom_of_handsDown {nearer further : List ClassEntry}
    (hvisited : catalogue.visited entry = nearer ++ further) (hancestor : ancestor ∈ nearer)
    (hhandsDown : HandsDown entry ancestor name) :
    ∃ source ∈ nearer, relativeName entry source = relativeName entry ancestor ∧
      HandsDown entry source name ∧ catalogue.ShownFrom entry source name := by
  obtain ⟨declared, hdeclared, rfl, hkept⟩ := hhandsDown
  have hcandidates : catalogue.candidates entry =
      all entry nearer ++ further.flatMap handedDown := by
    rw [candidates, hvisited, all, List.flatMap_append, ← List.append_assoc, all]
  have hmem : (⟨some ancestor, declared⟩ : Candidate) ∈ all entry nearer :=
    mem_all_of_declared hancestor hdeclared
  have hname : ':' ∉ declared.name.toList :=
    hplain _ (hcandidates ▸ List.mem_append_left _ hmem)
  -- the candidate is met among the first classes, and shown by itself or an earlier one
  obtain ⟨shown, hshown, hdisplay⟩ : Shows entry (survivors entry (all entry nearer))
      (decorate entry ancestor declared.name) := by
    obtain ⟨before, after, hsplit⟩ := List.append_of_mem hmem
    rw [hsplit, List.append_assoc, List.cons_append] at hcandidates
    rw [hsplit]
    exact shows_of_not_suppressed fun hsuppressed =>
      hkept ((suppressed_iff_of_plain hplain hcandidates rfl).mp hsuppressed)
  have hall : shown ∈ all entry nearer := mem_of_mem_survivors hshown
  have hsurvives : shown ∈ survivors entry (catalogue.candidates entry) :=
    hcandidates ▸ mem_survivors_append hshown
  obtain ⟨source, hsource, hrelative, hsameName⟩ := exists_ancestor_of_displayName
    (hplain shown (mem_of_mem_survivors hsurvives)) hname hdisplay
  refine ⟨source, ancestor_mem_of_mem_all hall hsource, hrelative, ?_, ?_⟩
  · obtain ⟨before, after, hsplit, hpasses⟩ := exists_of_mem_survivors hsurvives
    rw [suppressed_iff_of_plain hplain hsplit hsource, hsameName] at hpasses
    exact ⟨shown.declared, declared_mem_of_mem_all hall hsource, hsameName, hpasses⟩
  · refine ⟨shown.property entry,
      (resolve_perm_survivors catalogue entry).mem_iff.mpr (List.mem_map_of_mem hsurvives), ?_, ?_⟩
    · rw [decorate_eq, hrelative, ← decorate_eq]
      exact hdisplay
    · rw [Candidate.property, hsource, Option.getD_some]

/-- What an ancestor hands down is shown from it exactly if the walk comes to it first. -/
theorem shownFrom_iff (hancestor : ancestor ∈ catalogue.visited entry)
    (hhandsDown : HandsDown entry ancestor name) :
    catalogue.ShownFrom entry ancestor name ↔ catalogue.ComesFirst entry ancestor name := by
  constructor
  · intro hshown
    obtain ⟨nearer, further, hvisited, hfirst⟩ := List.eq_append_cons_of_mem hancestor
    refine ⟨nearer, further, hvisited, fun other hother htwin hotherHandsDown => ?_⟩
    obtain ⟨source, hsource, hrelative, -, hsourceShown⟩ :=
      exists_shownFrom_of_handsDown hplain hvisited hother hotherHandsDown
    have hsourceVisited : source ∈ catalogue.visited entry :=
      hvisited ▸ List.mem_append_left _ hsource
    have hsame : decorate entry ancestor name = decorate entry source name := by
      rw [decorate_eq, decorate_eq, hrelative, relativeName_eq_iff.mpr (Or.inr htwin)]
    have hne : ancestor ≠ source := by
      rintro rfl
      exact hfirst hsource
    exact not_shownFrom_both hancestor hsourceVisited hne hsame ⟨hshown, hsourceShown⟩
  · rintro ⟨nearer, further, hvisited, htwins⟩
    rw [← List.singleton_append, ← List.append_assoc] at hvisited
    obtain ⟨source, hsource, hrelative, hsourceHandsDown, hsourceShown⟩ :=
      exists_shownFrom_of_handsDown hplain hvisited List.mem_concat_self hhandsDown
    have hsourceVisited : source ∈ catalogue.visited entry :=
      hvisited ▸ List.mem_append_left _ hsource
    rcases List.mem_append.mp hsource with hnearer | hsame
    · rcases relativeName_eq_iff.mp hrelative with hname | htwin
      · obtain rfl := eq_of_simpleName_eq hsourceVisited hancestor hname
        exact hsourceShown
      · exact absurd hsourceHandsDown (htwins source hnearer htwin)
    · obtain rfl := List.mem_singleton.mp hsame
      exact hsourceShown

end Plain

/-- **Main statement.**  Two ancestors that both declare a property of one name, not virtual,
come under one decorated name exactly if they are twins, and then the class does not show both
properties.  Where no plain name holds a colon, it shows both exactly if the walk comes to
either one before any twin of it that hands such a property down; so it does if there are no
twins on the walk. -/
theorem decorated_apart_iff (catalogue : Catalogue) (entry first second : ClassEntry)
    (name : String) (hfirst : first ∈ catalogue.visited entry)
    (hsecond : second ∈ catalogue.visited entry) (hne : first ≠ second)
    (hfirstDeclares : DeclaresPlainly first name) (hsecondDeclares : DeclaresPlainly second name) :
    (decorate entry first name = decorate entry second name ↔ IsTwin entry first second) ∧
    (IsTwin entry first second →
      ¬ (catalogue.ShownFrom entry first name ∧ catalogue.ShownFrom entry second name)) ∧
    ((∀ candidate ∈ catalogue.candidates entry, ':' ∉ candidate.declared.name.toList) →
      (catalogue.ShownFrom entry first name ∧ catalogue.ShownFrom entry second name ↔
        catalogue.ComesFirst entry first name ∧ catalogue.ComesFirst entry second name) ∧
      ((∀ one ∈ catalogue.visited entry, ∀ other ∈ catalogue.visited entry,
          ¬ IsTwin entry one other) →
        catalogue.ShownFrom entry first name ∧ catalogue.ShownFrom entry second name)) := by
  have hdecorated : decorate entry first name = decorate entry second name ↔
      IsTwin entry first second := decorate_eq_iff_isTwin hfirst hsecond hne
  refine ⟨hdecorated, fun htwin => ?_, fun hplain => ⟨?_, fun hnoTwins => ?_⟩⟩
  · exact not_shownFrom_both hfirst hsecond hne (hdecorated.mpr htwin)
  · rw [shownFrom_iff hplain hfirst hfirstDeclares.handsDown,
      shownFrom_iff hplain hsecond hsecondDeclares.handsDown]
  · have hshown : ∀ ancestor ∈ catalogue.visited entry, DeclaresPlainly ancestor name →
        catalogue.ShownFrom entry ancestor name := by
      intro ancestor hancestor hdeclares
      refine (shownFrom_iff hplain hancestor hdeclares.handsDown).mpr ?_
      obtain ⟨nearer, further, hvisited⟩ := List.append_of_mem hancestor
      refine ⟨nearer, further, hvisited, fun other hother htwin => absurd htwin ?_⟩
      exact hnoTwins other (hvisited ▸ List.mem_append_left _ hother) ancestor hancestor
    exact ⟨hshown first hfirst hfirstDeclares, hshown second hsecond hsecondDeclares⟩

/-- `Acme.Leaf` below a class of this name below `Base`, which both declare a size. -/
def heirs (middle : String) : Catalogue :=
  let base : ClassDeclaration :=
    { fullName := "Base", baseTypeFullName := "Root",
      properties := [{ name := "Size", typeFullName := "System.Int32" }] }
  let heir : ClassDeclaration :=
    { fullName := middle, baseTypeFullName := "Base",
      properties := [{ name := "Size", typeFullName := "System.Int64" }] }
  let leaf : ClassDeclaration := { fullName := "Acme.Leaf", baseTypeFullName := middle }
  [base, heir, leaf].foldl (fun catalogue declaration => catalogue.register "App" declaration)
    (.empty (.ofList ["Root"]))

theorem decorated_apart_heirs :
    ∃ entry ∈ (heirs "Other.Base").entries, ∃ first ∈ (heirs "Other.Base").visited entry,
      ∃ second ∈ (heirs "Other.Base").visited entry, first ≠ second ∧
        DeclaresPlainly first "Size" ∧ DeclaresPlainly second "Size" ∧
        (heirs "Other.Base").ShownFrom entry first "Size" ∧
        (heirs "Other.Base").ShownFrom entry second "Size" := by
  obtain ⟨entry, hentry, first, hfirst, second, hsecond, hne, hfirstDeclares, hsecondDeclares,
      hplain, hnoTwins⟩ : ∃ entry ∈ (heirs "Other.Base").entries,
      ∃ first ∈ (heirs "Other.Base").visited entry,
        ∃ second ∈ (heirs "Other.Base").visited entry, first ≠ second ∧
          DeclaresPlainly first "Size" ∧ DeclaresPlainly second "Size" ∧
          (∀ candidate ∈ (heirs "Other.Base").candidates entry,
            ':' ∉ candidate.declared.name.toList) ∧
          ∀ one ∈ (heirs "Other.Base").visited entry,
            ∀ other ∈ (heirs "Other.Base").visited entry, ¬ IsTwin entry one other := by
    decide +kernel
  obtain ⟨-, -, hplainly⟩ := decorated_apart_iff (heirs "Other.Base") entry first second "Size"
    hfirst hsecond hne hfirstDeclares hsecondDeclares
  exact ⟨entry, hentry, first, hfirst, second, hsecond, hne, hfirstDeclares, hsecondDeclares,
    (hplainly hplain).2 hnoTwins⟩

/-- For `Acme.Leaf`, `Base` is the twin of `Acme.Base` behind it, and nothing is shown from it. -/
theorem farther_twin_lost :
    ∃ entry ∈ (heirs "Acme.Base").entries, entry.simpleName = "Acme.Leaf" ∧
      ∃ first ∈ (heirs "Acme.Base").visited entry, ∃ second ∈ (heirs "Acme.Base").visited entry,
        first ≠ second ∧ DeclaresPlainly first "Size" ∧ DeclaresPlainly second "Size" ∧
        ((heirs "Acme.Base").resolve entry).map Property.owningClass = [first.simpleName] ∧
        ∀ property ∈ (heirs "Acme.Base").resolve entry,
          property.owningClass ≠ second.simpleName := by
  decide +kernel

end Catalogue

end ActivityCatalogue
