import ActivityCatalogue.Proofs.PackageOrder
import ActivityCatalogue.Snapshot.File

/-!
# Sorting, whatever the enumeration

A directory enumerates its files in an order of its own.  What sorting makes of them
depends on that order only where it cannot tell files apart: it sees of a file its
package and its path in upper case (`sortKey`).

* The keys of the sorted files are those of the files in ascending order, in whatever
  order the files came (`map_sortKey_sort_of_perm`).
* Sorting is stable, so files of one key stay in the order in which they came
  (`filter_sortKey_sort`).

So files of which no two have one key are sorted alike from every enumeration.  Two
files whose names differ in case only do have one key, and they change places with the
enumeration (`sort_of_collision`); no weaker proviso would do (`toldApart_of_sort_eq`).
-/

namespace ActivityCatalogue

namespace PackageFile

variable {files others : List String}

/-! ## What sorting sees -/

/-- The package of a file, and within the package its path in upper case. -/
def sortKey (file : String) : List (WithBot String) ×ₗ String :=
  toLex (identity file, Text.upper file)

/-- No two of the files have one key. -/
def ToldApart (files : List String) : Prop :=
  ∀ first ∈ files, ∀ second ∈ files, sortKey first = sortKey second → first = second

theorem pairwise_sortKey_sort (files : List String) :
    (sort files).Pairwise fun earlier later => sortKey earlier ≤ sortKey later :=
  pairwise_sort files

theorem map_sortKey_sort_of_perm (hperm : others.Perm files) :
    (sort others).map sortKey = (sort files).map sortKey := by
  have hkeys : ((sort others).map sortKey).Perm ((sort files).map sortKey) := by
    apply List.Perm.map
    exact (sort_perm others).trans (hperm.trans (sort_perm files).symm)
  refine hkeys.eq_of_pairwise (fun _ _ _ _ => le_antisymm) ?_ ?_
  · exact List.pairwise_map.mpr (pairwise_sortKey_sort others)
  · exact List.pairwise_map.mpr (pairwise_sortKey_sort files)

/-- **Files of one key keep their order.** -/
theorem filter_sortKey_sort (files : List String) (key : List (WithBot String) ×ₗ String) :
    (sort files).filter (fun file => sortKey file = key) =
      files.filter (fun file => sortKey file = key) := by
  have halike : (files.filter fun file => sortKey file = key).Pairwise fun earlier later =>
      totalOrder earlier later != .gt := by
    apply List.pairwise_of_forall_mem_list
    intro earlier hearlier later hlater
    have hfirst : sortKey earlier = key := of_decide_eq_true (List.mem_filter.mp hearlier).2
    have hsecond : sortKey later = key := of_decide_eq_true (List.mem_filter.mp hlater).2
    exact totalOrder_ne_gt_iff.mpr (hfirst.trans hsecond.symm).le
  -- what comes in order stays in order, and these files are no more than before
  have hkept : (files.filter fun file => sortKey file = key).Sublist (sort files) :=
    List.sublist_mergeSort totalOrder_trans totalOrder_total halike List.filter_sublist
  have hsublist := hkept.filter fun file => decide (sortKey file = key)
  rw [List.filter_filter] at hsublist
  simp only [Bool.and_self] at hsublist
  exact (hsublist.eq_of_length ((sort_perm files).filter _).length_eq.symm).symm

/-! ## Which lists are sorted alike -/

theorem sort_eq_of_perm (hapart : ToldApart files) (hperm : others.Perm files) :
    sort others = sort files := by
  have hsorted : (sort others).Perm (sort files) :=
    (sort_perm others).trans (hperm.trans (sort_perm files).symm)
  refine hsorted.eq_of_pairwise ?_ (pairwise_sortKey_sort others) (pairwise_sortKey_sort files)
  intro first second hfirst hsecond hle hge
  have hfirst : first ∈ files := hperm.mem_iff.mp ((sort_perm others).mem_iff.mp hfirst)
  have hsecond : second ∈ files := (sort_perm files).mem_iff.mp hsecond
  exact hapart first hfirst second hsecond (le_antisymm hle hge)

/-- Of two files with one key, that which comes first is sorted first. -/
theorem toldApart_of_sort_eq (hsame : ∀ others, others.Perm files → sort others = sort files) :
    ToldApart files := by
  have hfront : ∀ file ∈ files, ∃ rest,
      (sort files).filter (fun other => sortKey other = sortKey file) = file :: rest := by
    intro file hfile
    have hsort : sort (file :: files.erase file) = sort files :=
      hsame _ (List.perm_cons_erase hfile).symm
    refine ⟨(files.erase file).filter fun other => sortKey other = sortKey file, ?_⟩
    rw [← hsort, filter_sortKey_sort, List.filter_cons_of_pos (by simp)]
  intro first hfirst second hsecond hkey
  obtain ⟨behindFirst, hfirst⟩ := hfront first hfirst
  obtain ⟨behindSecond, hsecond⟩ := hfront second hsecond
  rw [hkey, hsecond] at hfirst
  exact (List.cons.inj hfirst).1.symm

/-- Files that all have one key are not moved. -/
theorem sort_eq_self (key : List (WithBot String) ×ₗ String)
    (hkey : ∀ file ∈ files, sortKey file = key) : sort files = files := by
  have hsorted : ∀ file ∈ sort files, sortKey file = key := by
    intro file hfile
    exact hkey file ((sort_perm files).mem_iff.mp hfile)
  calc sort files
      = (sort files).filter fun file => sortKey file = key :=
        (List.filter_eq_self.mpr fun file hfile => decide_eq_true (hsorted file hfile)).symm
    _ = files.filter fun file => sortKey file = key := filter_sortKey_sort files key
    _ = files := List.filter_eq_self.mpr fun file hfile => decide_eq_true (hkey file hfile)

/-! ## Directories -/

/-- The snapshot files of a directory among the names that it enumerates. -/
def filesAmong (tree : FileTree) (directory : String) (names : List String) : List String :=
  (names.map (Path.join directory)).filter fun path => tree.isFile path && isSnapshot path

/-- A directory holds the same in two trees, which enumerate its names in any order. -/
structure HoldsAlike (tree other : FileTree) (directory : String) (names enumerated : List String) :
    Prop where
  perm : enumerated.Perm names
  isFile_eq : ∀ name ∈ names,
    other.isFile (Path.join directory name) = tree.isFile (Path.join directory name)

theorem HoldsAlike.filesAmong_perm {tree other : FileTree} {directory : String}
    {names enumerated : List String} (halike : HoldsAlike tree other directory names enumerated) :
    (filesAmong other directory enumerated).Perm (filesAmong tree directory names) := by
  have hsame : filesAmong other directory names = filesAmong tree directory names := by
    refine List.filter_congr fun path hpath => ?_
    obtain ⟨name, hname, rfl⟩ := List.mem_map.mp hpath
    rw [halike.isFile_eq name hname]
  rw [← hsame]
  exact (halike.perm.map _).filter _

theorem filesIn_eq {tree : FileTree} {directory : String} {names : List String}
    (hlist : tree.list directory = .ok names) :
    filesIn tree directory = .ok (sort (filesAmong tree directory names)) := by
  rw [filesIn, hlist]
  rfl

/-- What a directory holds determines its sorted files, unless two of them have one key. -/
theorem HoldsAlike.filesIn_eq {tree other : FileTree} {directory : String}
    {names enumerated : List String} (halike : HoldsAlike tree other directory names enumerated)
    (hlist : tree.list directory = .ok names)
    (hapart : ToldApart (filesAmong tree directory names)) :
    filesIn tree directory = .ok (sort (filesAmong other directory enumerated)) := by
  rw [PackageFile.filesIn_eq hlist, sort_eq_of_perm hapart halike.filesAmong_perm]

/-- **Main statement.**  In whatever order files come, sorting them gives the same packages
and the same paths in upper case, place by place, and files that agree in both keep the
order in which they came.  So the sorted list is the same for every order of the files
exactly if no two different files agree in both.

Where that holds of the snapshot files in directories, these files and their pairs depend
on what the directories hold, and not on how they enumerate it. -/
theorem sort_up_to_collisions :
    (∀ files others, others.Perm files →
      (sort others).map sortKey = (sort files).map sortKey) ∧
    (∀ files key, (sort files).filter (fun file => sortKey file = key) =
      files.filter (fun file => sortKey file = key)) ∧
    (∀ files, (∀ others, others.Perm files → sort others = sort files) ↔ ToldApart files) ∧
    (∀ (tree other : FileTree) directory names enumerated, tree.list directory = .ok names →
      HoldsAlike tree other directory names enumerated →
      ToldApart (filesAmong tree directory names) →
        filesIn tree directory = .ok (sort (filesAmong other directory enumerated))) ∧
    ∀ (tree other : FileTree) old new oldNames newNames oldEnumerated newEnumerated,
      tree.list old = .ok oldNames → tree.list new = .ok newNames →
      HoldsAlike tree other old oldNames oldEnumerated →
      HoldsAlike tree other new newNames newEnumerated →
      ToldApart (filesAmong tree old oldNames) → ToldApart (filesAmong tree new newNames) →
        pairDirectories tree old new = .ok (pair (sort (filesAmong other old oldEnumerated))
          (sort (filesAmong other new newEnumerated))) := by
  refine ⟨fun files others => map_sortKey_sort_of_perm, filter_sortKey_sort, ?_, ?_, ?_⟩
  · intro files
    constructor
    · exact toldApart_of_sort_eq
    · exact fun hapart others => sort_eq_of_perm hapart
  · intro tree other directory names enumerated hlist halike hapart
    exact halike.filesIn_eq hlist hapart
  · intro tree other old new oldNames newNames oldEnumerated newEnumerated hold hnew
      holdAlike hnewAlike holdApart hnewApart
    rw [pairDirectories, holdAlike.filesIn_eq hold holdApart,
      hnewAlike.filesIn_eq hnew hnewApart]
    rfl

/-- Two files whose names differ in case only are sorted as they come. -/
theorem sort_of_collision :
    ["a.json", "A.json"].Nodup ∧ ["A.json", "a.json"].Perm ["a.json", "A.json"] ∧
      sort ["A.json", "a.json"] ≠ sort ["a.json", "A.json"] := by
  have hkey : sortKey "A.json" = sortKey "a.json" := by
    have hsegments : segments "A.json" = segments "a.json" := by decide +kernel
    have hupper : Text.upper "A.json" = Text.upper "a.json" := by decide +kernel
    rw [sortKey, sortKey, identity, identity, hsegments, hupper]
  have hfirst : sort ["A.json", "a.json"] = ["A.json", "a.json"] :=
    sort_eq_self (sortKey "a.json") (by simp [hkey])
  have hsecond : sort ["a.json", "A.json"] = ["a.json", "A.json"] :=
    sort_eq_self (sortKey "a.json") (by simp [hkey])
  refine ⟨by decide, List.Perm.swap _ _ _, ?_⟩
  rw [hfirst, hsecond]
  decide

end PackageFile

end ActivityCatalogue
