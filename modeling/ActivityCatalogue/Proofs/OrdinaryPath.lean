import ActivityCatalogue.Proofs.Pieces
import ActivityCatalogue.Proofs.ReplacementFrame

/-!
# Ordinary paths

A path is ordinary if none of its components is a dot or two dots and it does not end with a
slash.  Components may be empty where slashes are doubled; they count for nothing.

Such a path means a name below some others, from the root or from the working directory.
Its draft means another name below the same ones, and its directory just those
(`exists_isTarget`).  The texts of the three are put together from components, so what they
mean is read off the components again.
-/

namespace ActivityCatalogue

namespace Path

open Text

variable {path component name : String} {components front : List String}

/-- Its components are names, apart from empty ones before the last. -/
structure IsOrdinary (path : String) : Prop where
  noDots : ∀ component ∈ pieces '/' path, component ≠ "." ∧ component ≠ ".."
  endsWithName : (pieces '/' path).getLast? ≠ some ""

instance : Decidable (IsOrdinary path) :=
  decidable_of_iff ((∀ component ∈ pieces '/' path, component ≠ "." ∧ component ≠ "..") ∧
    (pieces '/' path).getLast? ≠ some "") ⟨fun h => ⟨h.1, h.2⟩, fun h => ⟨h.1, h.2⟩⟩

/-- A component of an ordinary path. -/
structure IsPlain (component : String) : Prop where
  noSlash : '/' ∉ component.toList
  ne_dot : component ≠ "."
  ne_dots : component ≠ ".."

theorem isName_iff : isName name = true ↔ IsPlain name ∧ name ≠ "" := by
  rw [isName, isProper, isIdle, String.contains_char_eq]
  simp only [Bool.and_eq_true, bne_iff_ne, Bool.not_eq_true', Bool.or_eq_false_iff,
    beq_eq_false_iff_ne, decide_eq_false_iff_not]
  exact ⟨fun ⟨⟨hdots, hempty, hdot⟩, hslash⟩ => ⟨⟨hslash, hdot, hdots⟩, hempty⟩,
    fun ⟨⟨hslash, hdot, hdots⟩, hempty⟩ => ⟨⟨hdots, hempty, hdot⟩, hslash⟩⟩

theorem IsOrdinary.exists_pieces (hordinary : IsOrdinary path) :
    ∃ front name, pieces '/' path = front ++ [name] ∧ isName name = true ∧
      ∀ component ∈ front, IsPlain component := by
  have hplain : ∀ component ∈ pieces '/' path, IsPlain component := by
    intro component hcomponent
    obtain ⟨hdot, hdots⟩ := hordinary.noDots component hcomponent
    exact ⟨fun hmem => (of_mem_pieces hcomponent hmem).1 rfl, hdot, hdots⟩
  have hne : pieces '/' path ≠ [] := by simp [pieces]
  have hsplit := List.dropLast_concat_getLast hne
  refine ⟨_, _, hsplit.symm, isName_iff.mpr ⟨hplain _ (List.getLast_mem hne), ?_⟩, ?_⟩
  · intro hempty
    apply hordinary.endsWithName
    rw [List.getLast?_eq_some_getLast hne, hempty]
  · exact fun component hcomponent => hplain component (List.dropLast_subset _ hcomponent)

/-! ## Components at the end -/

theorem not_isIdle_of_isName (hname : isName name = true) : isIdle name = false := by
  obtain ⟨hplain, hempty⟩ := isName_iff.mp hname
  simp [isIdle, hempty, hplain.ne_dot]

/-- Only idle components are dropped. -/
theorem exists_dropIdle (components : List String) :
    ∃ idle, components = dropIdle components ++ idle ∧ ∀ component ∈ idle, isIdle component := by
  refine ⟨(components.reverse.takeWhile isIdle).reverse, ?_, ?_⟩
  · rw [dropIdle, ← List.reverse_append, List.takeWhile_append_dropWhile, List.reverse_reverse]
  · intro component hcomponent
    exact List.all_eq_true.mp List.all_takeWhile component (List.mem_reverse.mp hcomponent)

theorem dropIdle_concat (hname : isName name = true) (front : List String) :
    dropIdle (front ++ [name]) = front ++ [name] := by
  simp [dropIdle, not_isIdle_of_isName hname]

/-! ## Where a path starts -/

theorem isAbsolute_iff : isAbsolute path = true ↔
    ∃ next more, pieces '/' path = "" :: next :: more := by
  rw [isAbsolute, beq_iff_eq, head?_eq_separator_iff, pieces, List.map_cons]
  constructor
  · rintro ⟨hfirst, hmore⟩
    obtain ⟨next, more, hcut⟩ := List.exists_cons_of_ne_nil hmore
    exact ⟨String.ofList next, more.map String.ofList, by rw [hfirst, hcut]; rfl⟩
  · rintro ⟨next, more, hpieces⟩
    obtain ⟨hfirst, hmore⟩ := List.cons.inj hpieces
    refine ⟨String.ofList_inj.mp hfirst, fun hnil => List.cons_ne_nil next more ?_⟩
    rw [← hmore, hnil, List.map_nil]

theorem isAbsolute_eq_of_pieces (hpieces : pieces '/' path = front ++ [name]) :
    isAbsolute path = decide (front.head? = some "") := by
  rw [Bool.eq_iff_iff, isAbsolute_iff, hpieces, decide_eq_true_iff]
  cases front with
  | nil => simp
  | cons first front =>
      obtain ⟨next, more, hrest⟩ := List.exists_cons_of_ne_nil
        (List.append_ne_nil_of_right_ne_nil front (List.cons_ne_nil name []))
      simp [hrest]

/-! ## The draft -/

theorem parts_of_single (hpieces : pieces '/' path = [name]) : parts path = (name, []) := by
  rw [parts, hpieces]
  rfl

theorem parts_of_cons {first : String} (hpieces : pieces '/' path = first :: (front ++ [name]))
    (hname : isName name = true) : parts path = (first, front ++ [name]) := by
  rw [parts, hpieces]
  simp only [dropIdle_concat hname]

/-- Only the last component gets another extension. -/
theorem withExtension_eq_join (hpieces : pieces '/' path = front ++ [name])
    (hname : isName name = true) (extension : String) :
    withExtension path extension =
      Text.join '/' (front ++ [(stemAndExtension name).1 ++ "." ++ extension]) := by
  have hproper : isProper name = true := (Bool.and_eq_true_iff.mp hname).1
  cases front with
  | nil =>
      have hparts := parts_of_single hpieces
      have hfileName : fileName? path = some name := by simp [fileName?, hparts, hproper]
      rw [withExtension, hfileName, hparts]
      simp [Text.join, String.append_assoc]
  | cons first between =>
      have hparts := parts_of_cons hpieces hname
      have hfileName : fileName? path = some name := by simp [fileName?, hparts, hproper]
      obtain ⟨next, more, hrest⟩ := List.exists_cons_of_ne_nil
        (List.append_ne_nil_of_right_ne_nil between (List.cons_ne_nil name []))
      rw [withExtension, hfileName, hparts]
      simp only [hrest]
      rw [← hrest, List.dropLast_concat, List.cons_append]

/-- The stem of a name holds characters of the name. -/
theorem mem_of_mem_stem {c : Char} (hc : c ∈ (stemAndExtension name).1.toList) :
    c = '.' ∨ c ∈ name.toList := by
  unfold stemAndExtension at hc
  split at hc
  · next extension before more hreverse =>
      have hpieces : ∀ piece ∈ (before :: more).reverse, piece ∈ pieces '.' name := by
        intro piece hpiece
        rw [← List.mem_reverse, hreverse]
        exact List.mem_cons_of_mem _ (List.mem_reverse.mp hpiece)
      dsimp only at hc
      split at hc
      · exact Or.inr hc
      · refine (of_mem_join hc).imp_right fun ⟨piece, hpiece, hmem⟩ => ?_
        exact (of_mem_pieces (hpieces piece hpiece) hmem).2
  · exact Or.inr hc

theorem isName_renamed (hname : isName name = true) :
    isName ((stemAndExtension name).1 ++ "." ++ "tmp") = true := by
  obtain ⟨hplain, -⟩ := isName_iff.mp hname
  have htail : 't' ∈ ((stemAndExtension name).1 ++ "." ++ "tmp").toList := by
    rw [String.toList_append]
    exact List.mem_append_right _ (by decide)
  have hne : ∀ text : String, 't' ∉ text.toList →
      (stemAndExtension name).1 ++ "." ++ "tmp" ≠ text := fun text hnot heq => hnot (heq ▸ htail)
  refine isName_iff.mpr ⟨⟨?_, hne "." (by decide), hne ".." (by decide)⟩, hne "" (by decide)⟩
  intro hslash
  rw [String.toList_append, String.toList_append, List.mem_append, List.mem_append] at hslash
  rcases hslash with (hstem | hdot) | htmp
  · rcases mem_of_mem_stem hstem with hdot | hmem
    · exact absurd hdot (by decide)
    · exact hplain.noSlash hmem
  · exact absurd hdot (by decide)
  · exact absurd htmp (by decide)

end Path

/-! ## What the three paths mean -/

open Text ActivityCatalogue.Path

variable {path name : String} {front : List String}

theorem Route.eq_of_ofPath {route : Route} (hroute : Route.ofPath path = .ok route) :
    route = ⟨isAbsolute path, (pieces '/' path).filterMap Step.ofComponent?,
      path.toList.getLast? == some '/'⟩ := by
  unfold Route.ofPath at hroute
  split at hroute
  · cases hroute
  · split at hroute
    · cases hroute
    · split at hroute
      · cases hroute
      · exact (Except.ok.inj hroute).symm

/-- Plain components tell steps down. -/
theorem exists_filterMap_ofComponent? (hplain : ∀ component ∈ front, IsPlain component) :
    ∃ above : Place, front.filterMap Step.ofComponent? = above.map .down := by
  induction front with
  | nil => exact ⟨[], rfl⟩
  | cons component front ih =>
      obtain ⟨above, habove⟩ := ih fun other hother => hplain other (List.mem_cons_of_mem _ hother)
      have hcomponent := hplain component List.mem_cons_self
      by_cases hempty : component = ""
      · subst hempty
        exact ⟨above, habove⟩
      · have hname : isName component = true := isName_iff.mpr ⟨hcomponent, hempty⟩
        refine ⟨⟨component, hname⟩ :: above, ?_⟩
        rw [List.filterMap_cons_some (b := .down ⟨component, hname⟩) (dif_pos hname), habove,
          List.map_cons]

/-- Idle components tell no steps. -/
theorem filterMap_ofComponent?_dropIdle (hplain : ∀ component ∈ front, IsPlain component) :
    (dropIdle front).filterMap Step.ofComponent? = front.filterMap Step.ofComponent? := by
  obtain ⟨idle, hfront, hidle⟩ := exists_dropIdle front
  have hnone : idle.filterMap Step.ofComponent? = [] := by
    rw [List.filterMap_eq_nil_iff]
    intro component hcomponent
    have hmem : component ∈ front := hfront ▸ List.mem_append_right _ hcomponent
    have hempty : component = "" := by
      have hcases := hidle component hcomponent
      rw [isIdle, Bool.or_eq_true, beq_iff_eq, beq_iff_eq] at hcases
      exact hcases.resolve_right (hplain component hmem).ne_dot
    rw [hempty]
    rfl
  conv => rhs; rw [hfront]
  rw [List.filterMap_append, hnone, List.append_nil]

/-- A text of plain components before a name means the steps down to it. -/
theorem Route.eq_of_pieces {route : Route} {above : Place} (hroute : Route.ofPath path = .ok route)
    (hpieces : pieces '/' path = front ++ [name]) (hname : isName name = true)
    (habove : front.filterMap Step.ofComponent? = above.map .down) :
    route = ⟨decide (front.head? = some ""),
      (above ++ [(⟨name, hname⟩ : FileName)]).map .down, false⟩ := by
  have hlast : (path.toList.getLast? == some '/') = false := by
    rw [beq_eq_false_iff_ne]
    intro hslash
    obtain ⟨hplain, hempty⟩ := isName_iff.mp hname
    obtain ⟨lead, hlead⟩ := suffix_join '/' front name
    rw [← hpieces, join_pieces] at hlead
    have hne : name.toList ≠ [] := fun hnil => hempty (String.toList_eq_nil_iff.mp hnil)
    rw [← hlead, List.getLast?_append, List.getLast?_eq_some_getLast hne, Option.some_or,
      Option.some_inj] at hslash
    exact hplain.noSlash (hslash ▸ List.getLast_mem hne)
  rw [Route.eq_of_ofPath hroute, isAbsolute_eq_of_pieces hpieces, hlast, hpieces,
    List.filterMap_append, habove, List.map_append]
  congr 2
  rw [List.filterMap_cons_some (b := .down ⟨name, hname⟩) (dif_pos hname)]
  rfl

/-- The path of the directory keeps the components before the name, apart from empty ones.
Where only these are left behind a slash at the start, it is that slash. -/
theorem exists_pieces_directoryPath {first : String}
    (hpieces : pieces '/' path = first :: (front ++ [name])) (hname : isName name = true)
    (hfirst : IsPlain first) (hplain : ∀ component ∈ front, IsPlain component) :
    ∃ more, pieces '/' (FileTree.directoryPath path) = first :: more ∧
      (more = [] → first ≠ "") ∧
      more.filterMap Step.ofComponent? = front.filterMap Step.ofComponent? := by
  have hkept : ∀ component ∈ dropIdle front, '/' ∉ component.toList := by
    obtain ⟨idle, hfront, -⟩ := exists_dropIdle front
    intro component hcomponent
    exact (hplain component (hfront ▸ List.mem_append_left idle hcomponent)).noSlash
  have hjoin : pieces '/' (Text.join '/' (first :: dropIdle front)) = first :: dropIdle front :=
    pieces_join (List.cons_ne_nil _ _) (List.forall_mem_cons.mpr ⟨hfirst.noSlash, hkept⟩)
  have hsteps := filterMap_ofComponent?_dropIdle hplain
  have hparent : parent? path = some (if dropIdle front = [] then
      (if first.isEmpty then "/" else first) else Text.join '/' (first :: dropIdle front)) := by
    rw [parent?, parts_of_cons hpieces hname]
    cases hrest : front ++ [name] with
    | nil => exact absurd hrest (by simp)
    | cons next more =>
        simp only
        rw [← hrest, List.dropLast_concat]
        cases dropIdle front <;> rfl
  rw [FileTree.directoryPath, hparent, Option.getD_some]
  cases hdropped : dropIdle front with
  | nil =>
      rw [hdropped] at hsteps hjoin
      rw [if_pos rfl]
      by_cases hroot : first = ""
      · refine ⟨[""], ?_, fun hnil => absurd hnil (List.cons_ne_nil _ _), hsteps⟩
        rw [hroot]
        rfl
      · refine ⟨[], ?_, fun _ => hroot, hsteps⟩
        simpa [hroot, Text.join] using hjoin
  | cons next kept =>
      rw [hdropped] at hsteps hjoin
      rw [if_neg (List.cons_ne_nil next kept)]
      exact ⟨next :: kept, hjoin, fun hnil => absurd hnil (List.cons_ne_nil _ _), hsteps⟩

/-- The directory of a path means the names above. -/
theorem route_directoryPath {route : Route}
    (hroute : Route.ofPath (FileTree.directoryPath path) = .ok route)
    (hpieces : pieces '/' path = front ++ [name]) (hname : isName name = true)
    (hplain : ∀ component ∈ front, IsPlain component) :
    route.fromRoot = decide (front.head? = some "") ∧
      route.steps = front.filterMap Step.ofComponent? := by
  cases front with
  | nil =>
      have hempty : name ≠ "" := (isName_iff.mp hname).2
      have hdirectory : FileTree.directoryPath path = "" := by
        rw [FileTree.directoryPath, parent?, parts_of_single hpieces]
        simp [hempty]
      have hfails : Route.ofPath "" = .error .missing := rfl
      rw [hdirectory, hfails] at hroute
      cases hroute
  | cons first between =>
      obtain ⟨hfirst, hbetween⟩ := List.forall_mem_cons.mp hplain
      obtain ⟨more, hmore, hstart, hsteps⟩ :=
        exists_pieces_directoryPath hpieces hname hfirst hbetween
      rw [Route.eq_of_ofPath hroute, hmore]
      refine ⟨?_, ?_⟩
      · rw [Bool.eq_iff_iff, isAbsolute_iff, hmore, decide_eq_true_iff, List.head?_cons,
          Option.some_inj]
        cases more with
        | nil => simpa using hstart rfl
        | cons next more => simp
      · rw [List.filterMap_cons, List.filterMap_cons, hsteps]

/-! ## Targets -/

/-- A path means a name below others, its draft another name there, and its directory just
those above.  A path that is too long or holds a null character means nothing. -/
structure IsTarget (path : String) (fromRoot : Bool) (above : Place) (name draft : FileName) :
    Prop where
  route : ∀ route, Route.ofPath path = .ok route →
    route = ⟨fromRoot, (above ++ [name]).map .down, false⟩
  draftRoute : ∀ route, Route.ofPath (FileTree.draftPath path) = .ok route →
    route = ⟨fromRoot, (above ++ [draft]).map .down, false⟩
  directoryRoute : ∀ route, Route.ofPath (FileTree.directoryPath path) = .ok route →
    route.fromRoot = fromRoot ∧ route.steps = above.map .down

theorem Path.IsOrdinary.exists_isTarget (hordinary : IsOrdinary path) :
    ∃ fromRoot above name draft, IsTarget path fromRoot above name draft := by
  obtain ⟨front, name, hpieces, hname, hplain⟩ := hordinary.exists_pieces
  obtain ⟨above, habove⟩ := exists_filterMap_ofComponent? hplain
  have hrenamed := isName_renamed hname
  have hdraftPieces : pieces '/' (FileTree.draftPath path) =
      front ++ [(stemAndExtension name).1 ++ "." ++ "tmp"] := by
    rw [FileTree.draftPath, withExtension_eq_join hpieces hname]
    refine pieces_join (by simp) fun part hpart => ?_
    rcases List.mem_append.mp hpart with hfront | hlast
    · exact (hplain part hfront).noSlash
    · rw [List.mem_singleton.mp hlast]
      exact (isName_iff.mp hrenamed).1.noSlash
  refine ⟨decide (front.head? = some ""), above, ⟨name, hname⟩, ⟨_, hrenamed⟩, ?_, ?_, ?_⟩
  · exact fun route hroute => Route.eq_of_pieces hroute hpieces hname habove
  · exact fun route hroute => Route.eq_of_pieces hroute hdraftPieces hrenamed habove
  · intro route hroute
    rw [← habove]
    exact route_directoryPath hroute hpieces hname hplain

end ActivityCatalogue
