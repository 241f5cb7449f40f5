import ActivityCatalogue.Proofs.BaseNames
import ActivityCatalogue.Proofs.History

/-!
# Roots as they are configured

Settings list roots by their full names.  A walk compares them with the simple names of base
types, from which the mark and number of template arguments are cut, and it compares them as
they stand.  So it meets a root when it comes to any base type whose simple name is configured
(`isActivity_iff_arrivesAt`), and what matters of a configured root is whether its simple name is
configured (`isMet_iff`): that is so for a root that bears no mark, and for another one if its
plain name is listed beside it.

A root that is listed with its mark alone is never met, since making names simple cuts marks off
once and for all (`simpleName_simpleName`).
-/

namespace ActivityCatalogue

/-! ## Simple names -/

/-- What stands before the first backtick of a name. -/
def plainPart (name : String) : List Char := name.toList.takeWhile (· != Char.ofNat 0x60)

theorem simpleName_of_nil {name : String} (hplain : plainPart name = []) :
    simpleName name = name := by
  rw [plainPart] at hplain
  rw [simpleName, hplain]

theorem simpleName_of_ne_nil {name : String} (hplain : plainPart name ≠ []) :
    simpleName name = String.ofList (plainPart name) := by
  rw [plainPart] at hplain ⊢
  unfold simpleName
  split
  · next hnil => exact absurd hnil hplain
  · rfl

theorem simpleName_ne_empty {name : String} (hne : name ≠ "") : simpleName name ≠ "" := by
  by_cases hplain : plainPart name = []
  · rwa [simpleName_of_nil hplain]
  · rw [simpleName_of_ne_nil hplain]
    exact fun hempty => hplain (String.ofList_inj.mp hempty)

theorem simpleName_simpleName (name : String) : simpleName (simpleName name) = simpleName name := by
  by_cases hplain : plainPart name = []
  · rw [simpleName_of_nil hplain, simpleName_of_nil hplain]
  · have hsame : plainPart (simpleName name) = plainPart name := by
      rw [simpleName_of_ne_nil hplain, plainPart, plainPart, String.toList_ofList,
        List.takeWhile_idem]
    rw [simpleName_of_ne_nil (hsame ▸ hplain), hsame, simpleName_of_ne_nil hplain]

/-- A name is its own simple name if it bears no backtick, or bears one in front. -/
theorem simpleName_eq_self_iff {name : String} :
    simpleName name = name ↔
      Char.ofNat 0x60 ∉ name.toList ∨ name.toList.head? = some (Char.ofNat 0x60) := by
  by_cases hplain : plainPart name = []
  · rw [simpleName_of_nil hplain, eq_self_iff_true, true_iff]
    rw [plainPart] at hplain
    cases hname : name.toList with
    | nil => exact Or.inl List.not_mem_nil
    | cons first rest =>
        rw [hname, List.takeWhile_cons] at hplain
        split at hplain
        · exact nomatch hplain
        · next hmark =>
            rw [bne_iff_ne, not_not] at hmark
            exact Or.inr (congrArg some hmark)
  · have hfront : name.toList.head? ≠ some (Char.ofNat 0x60) := by
      intro hhead
      obtain ⟨rest, hname⟩ := List.head?_eq_some_iff.mp hhead
      exact hplain (by rw [plainPart, hname, List.takeWhile_cons, if_neg (by decide)])
    rw [simpleName_of_ne_nil hplain, ← String.toList_inj, String.toList_ofList, plainPart,
      List.takeWhile_eq_self_iff, or_iff_left hfront]
    constructor
    · exact fun hkept hmark => absurd (hkept _ hmark) (by decide)
    · exact fun hunmarked letter hletter => bne_iff_ne.mpr fun hmark => hunmarked (hmark ▸ hletter)

/-- No simple name is a name that loses something as it is made simple. -/
theorem simpleName_ne_of_marked {root : String} (hmarked : simpleName root ≠ root)
    (fullName : String) : simpleName fullName ≠ root := by
  rintro rfl
  exact hmarked (simpleName_simpleName fullName)

namespace Catalogue

variable {settings : Settings} {catalogue : Catalogue} {entry base : ClassEntry}
  {root fullName : String} {step hops : Nat}

/-! ## Base types under their full names -/

/-- The chain of base types from a class comes to a base type of this full name after so many
steps.  An empty name stands for no base type. -/
inductive ArrivesAt (catalogue : Catalogue) : ClassEntry → Nat → String → Prop
  | here {entry : ClassEntry} (hbase : entry.superFullName ≠ "") :
      ArrivesAt catalogue entry 0 entry.superFullName
  | onward {entry base : ClassEntry} {step : Nat} {fullName : String}
      (hbase : entry.superFullName ≠ "")
      (hfound : catalogue.find? (simpleName entry.superFullName) = some base)
      (hrest : ArrivesAt catalogue base step fullName) :
      ArrivesAt catalogue entry (step + 1) fullName

/-- Walks go by the simple name of each base type. -/
theorem Reachable.superSimpleName_eq (hreach : catalogue.Reachable)
    (hentry : entry ∈ catalogue.entries) :
    entry.superSimpleName = simpleName entry.superFullName := by
  induction hreach generalizing entry with
  | empty roots => exact nomatch hentry
  | register _ package declaration ih =>
      rcases mem_entries_register hentry with hold | rfl
      · exact ih hold
      · rfl
  | @settle catalogue _ asked ih =>
      rw [entries_settle] at hentry
      obtain ⟨old, hold, rfl⟩ := List.mem_map.mp hentry
      have hsuperFullName : (catalogue.settling asked old).superFullName = old.superFullName := by
        rw [settling]
        split
        · rfl
        · rfl
      rw [superSimpleName_settling, hsuperFullName, ih hold]

/-- A walk meets a root exactly if the chain comes, within the hops, to a base type whose simple
name is one. -/
theorem reachesRoot_iff_arrivesAt (hreach : catalogue.Reachable)
    (hentry : entry ∈ catalogue.entries) :
    catalogue.reachesRoot hops entry.superSimpleName = true ↔
      ∃ step < hops, ∃ fullName, catalogue.ArrivesAt entry step fullName ∧
        catalogue.isRoot (simpleName fullName) = true := by
  induction hops generalizing entry with
  | zero => exact ⟨nofun, fun ⟨_, hlt, _⟩ => absurd hlt (Nat.not_lt_zero _)⟩
  | succ hops ih =>
      rw [reachesRoot_succ_iff, hreach.superSimpleName_eq hentry]
      constructor
      · rintro (⟨hempty, hroot⟩ | ⟨base, honward, hreaches⟩)
        · refine ⟨0, Nat.succ_pos hops, entry.superFullName, .here fun hnone => ?_, hroot⟩
          rw [hnone] at hempty
          exact nomatch hempty
        · obtain ⟨⟨hnonempty, -, -⟩, hfound⟩ := onward?_eq_some_iff.mp honward
          obtain ⟨step, hlt, fullName, harrives, hroot⟩ :=
            (ih (mem_entries_of_find? hfound)).mp hreaches
          refine ⟨step + 1, Nat.succ_lt_succ hlt, fullName, ?_, hroot⟩
          exact .onward (fun hnone => hnonempty (by rw [hnone]; rfl)) hfound harrives
      · rintro ⟨step, hlt, fullName, harrives, hroot⟩
        cases harrives with
        | here hbase =>
            exact Or.inl ⟨String.isEmpty_eq_false_iff.mpr (simpleName_ne_empty hbase), hroot⟩
        | @onward _ base step _ hbase hfound hrest =>
            have hnonempty := simpleName_ne_empty hbase
            -- the walk may stop at a root on the way
            cases hstop : catalogue.isRoot (simpleName entry.superFullName) with
            | true => exact Or.inl ⟨String.isEmpty_eq_false_iff.mpr hnonempty, rfl⟩
            | false =>
                have hgoesOn : catalogue.GoesOn (simpleName entry.superFullName) :=
                  ⟨hnonempty, hstop, Option.isSome_iff_exists.mpr ⟨base, hfound⟩⟩
                refine Or.inr ⟨base, onward?_eq_some_iff.mpr ⟨hgoesOn, hfound⟩, ?_⟩
                exact (ih (mem_entries_of_find? hfound)).mpr
                  ⟨step, Nat.lt_of_succ_lt_succ hlt, fullName, hrest, hroot⟩

/-- Where all classes have one base type, no chain comes to another one. -/
theorem ArrivesAt.eq_of_single (harrives : catalogue.ArrivesAt entry step fullName)
    (hsingle : ∀ other ∈ catalogue.entries, other.superFullName = root)
    (hentry : entry ∈ catalogue.entries) : fullName = root := by
  induction harrives with
  | here hbase => exact hsingle _ hentry
  | onward hbase hfound hrest ih => exact ih (mem_entries_of_find? hfound)

/-! ## Configured names -/

/-- The trimmed name is listed and not blank. -/
def IsConfigured (settings : Settings) (root : String) : Prop :=
  root ∈ settings.activityClasses.map Text.trim ∧ root ≠ ""

instance : Decidable (IsConfigured settings root) := inferInstanceAs (Decidable (_ ∧ _))

/-- A class is an activity if its chain comes to a base type whose simple name is configured. -/
theorem isActivity_iff_arrivesAt (hreach : catalogue.Reachable)
    (hroots : catalogue.roots = settings.roots) (hentry : entry ∈ catalogue.entries) :
    catalogue.isActivity entry = true ↔
      ∃ step < maxHops, ∃ fullName, catalogue.ArrivesAt entry step fullName ∧
        IsConfigured settings (simpleName fullName) := by
  rw [isActivity, reachesRoot_iff_arrivesAt hreach hentry]
  simp only [isRoot_iff_of_settings settings hroots, IsConfigured]

/-- Every class whose chain of base types comes to the root within the hops is an activity. -/
def IsMet (settings : Settings) (root : String) : Prop :=
  ∀ catalogue : Catalogue, catalogue.Reachable → catalogue.roots = settings.roots →
    ∀ entry ∈ catalogue.entries, ∀ step < maxHops, catalogue.ArrivesAt entry step root →
      catalogue.isActivity entry = true

/-- A catalogue of one class, right below a root. -/
def below (settings : Settings) (root : String) : Catalogue :=
  (ofSettings settings).register "App" { fullName := "Leaf", baseTypeFullName := root }

theorem reachable_below (settings : Settings) (root : String) : (below settings root).Reachable :=
  (Reachable.empty _).register _ _

theorem entries_below (settings : Settings) (root : String) : (below settings root).entries =
    [.ofDeclaration "App" { fullName := "Leaf", baseTypeFullName := root }] := rfl

theorem mem_entries_below (settings : Settings) (root : String) :
    .ofDeclaration "App" { fullName := "Leaf", baseTypeFullName := root } ∈
      (below settings root).entries := by
  rw [entries_below]
  exact List.mem_singleton_self _

theorem isMet_iff (hne : root ≠ "") :
    IsMet settings root ↔ IsConfigured settings (simpleName root) := by
  constructor
  · intro hmet
    have hentry := mem_entries_below settings root
    have hactivity := hmet (below settings root) (reachable_below settings root) rfl _ hentry
      0 (by decide) (.here hne)
    obtain ⟨step, -, fullName, harrives, hconfigured⟩ :=
      (isActivity_iff_arrivesAt (reachable_below settings root) rfl hentry).mp hactivity
    have hsame : fullName = root := by
      refine harrives.eq_of_single (fun other hother => ?_) hentry
      rw [entries_below, List.mem_singleton] at hother
      rw [hother]
      rfl
    exact hsame ▸ hconfigured
  · intro hconfigured catalogue hreach hroots entry hentry step hlt harrives
    exact (isActivity_iff_arrivesAt hreach hroots hentry).mpr
      ⟨step, hlt, root, harrives, hconfigured⟩

/-- **Main statement.**  Every class that comes to a configured root is an activity exactly if
the simple name of that root is configured, too.  So it is for a root without a mark, be it one
that only looks like a mark because nothing stands before it.  A root that does lose a mark is
not the simple name of anything, so listing it as it is has no effect. -/
theorem configured_root_met_iff (settings : Settings) (root : String)
    (hroot : IsConfigured settings root) :
    (IsMet settings root ↔ IsConfigured settings (simpleName root)) ∧
    (Char.ofNat 0x60 ∉ root.toList ∨ root.toList.head? = some (Char.ofNat 0x60) →
      IsMet settings root) ∧
    (simpleName root ≠ root → ∀ fullName, simpleName fullName ≠ root) := by
  refine ⟨isMet_iff hroot.2, fun hunmarked => ?_, simpleName_ne_of_marked⟩
  have hsame : simpleName root = root := simpleName_eq_self_iff.mpr hunmarked
  exact (isMet_iff hroot.2).mpr (hsame.symm ▸ hroot)

theorem configured_root_met_activity :
    IsConfigured {} "System.Activities.Activity" ∧
    IsMet {} "System.Activities.Activity" ∧
    (below {} "System.Activities.Activity").entries.map
      (below {} "System.Activities.Activity").isActivity = [true] := by
  have hroot : IsConfigured {} "System.Activities.Activity" := by decide +kernel
  obtain ⟨-, hunmarked, -⟩ := configured_root_met_iff {} "System.Activities.Activity" hroot
  have hmet : IsMet {} "System.Activities.Activity" := hunmarked (Or.inl (by decide +kernel))
  have hactivity := hmet (below {} "System.Activities.Activity") (reachable_below _ _) rfl _
    (mem_entries_below _ _) 0 (by decide) (.here hroot.2)
  refine ⟨hroot, hmet, ?_⟩
  rw [entries_below, List.map_singleton, hactivity]

/-- A root that is listed with the mark and number of its template arguments. -/
def markedRoot : Settings := { activityClasses := ["Acme.Root`1"] }

theorem root_lost :
    IsConfigured markedRoot "Acme.Root`1" ∧
    (below markedRoot "Acme.Root`1").Reachable ∧
    (below markedRoot "Acme.Root`1").roots = markedRoot.roots ∧
    ∃ entry ∈ (below markedRoot "Acme.Root`1").entries,
      (below markedRoot "Acme.Root`1").ArrivesAt entry 0 "Acme.Root`1" ∧
      (below markedRoot "Acme.Root`1").isActivity entry = false := by
  refine ⟨by decide +kernel, reachable_below _ _, rfl, _, List.mem_singleton_self _, ?_, ?_⟩
  · exact .here (by decide)
  · decide +kernel

end Catalogue

end ActivityCatalogue
