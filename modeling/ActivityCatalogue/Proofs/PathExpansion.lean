import Mathlib
import ActivityCatalogue.File.Expansion
import ActivityCatalogue.Proofs.Alignment
import ActivityCatalogue.Proofs.JoinedPath
import ActivityCatalogue.Proofs.ReplacementFrame

/-!
# The expansion of a path

A path stands for files only if nothing exists there and its last component is a pattern.
What it stands for is said without the list of the directory (`IsMatch`): the paths that join
the directory of the path with a name that the pattern accepts, and at which there is a file.
The expansion holds just these, each once, and they ascend by their paths in upper case
(`mem_expansion_iff`, `nodup_expansion`, `pairwise_expansion`).

There is a file at each of them, so each is kept when it is expanded in turn, also if its name
looks like a pattern (`value_expandAll_of_mem`).
-/

namespace ActivityCatalogue

namespace FileTree

variable {tree : FileTree} {path file directory : String} {pattern : List Wildcard.Part}

/-- The pattern that the last component of a path spells. -/
def patternOf? (path : String) : Option (List Wildcard.Part) :=
  (Path.fileName? path).bind fun name => (Wildcard.read name).toOption

/-- A file of the directory of a path, whose name the pattern accepts. -/
def IsMatch (tree : FileTree) (path : String) (pattern : List Wildcard.Part) (file : String) :
    Prop :=
  ∃ name : FileName, file = Path.join (directoryPath path) name.text ∧
    tree.isFile file = true ∧ Wildcard.accepts pattern name.text.toList = true

theorem pathExists_of_isFile (hfile : tree.isFile path = true) : tree.pathExists path = true := by
  unfold isFile at hfile
  unfold pathExists
  split at hfile
  · next hfind => rw [hfind]
  · exact nomatch hfile
  · exact nomatch hfile

/-! ## The files that match -/

/-- The directory in which files are looked for; the empty path stands for the working one. -/
def placeOf (directory : String) : String := if directory.isEmpty then "." else directory

theorem placeOf_ne_empty (directory : String) : placeOf directory ≠ "" := by
  unfold placeOf
  split
  · decide
  · next hne => simpa using hne

theorem isFile_join_placeOf_iff (tree : FileTree) (directory : String) (name : FileName) :
    tree.isFile (Path.join (placeOf directory) name.text) = true ↔
      tree.isFile (Path.join directory name.text) = true := by
  by_cases hempty : directory = ""
  · subst hempty
    rw [Path.join_empty]
    exact isFile_join_dot_iff tree name
  · have hplace : placeOf directory = directory := by simp [placeOf, hempty]
    rw [hplace]

/-- The names that match, in the order of the list. -/
def namesMatching (tree : FileTree) (directory : String) (pattern : List Wildcard.Part)
    (names : List String) : List String :=
  names.filter fun name =>
    tree.isFile (Path.join (placeOf directory) name) && Wildcard.accepts pattern name.toList

theorem filesMatching_of_list {names : List String}
    (hlist : tree.list (placeOf directory) = .ok names) :
    (tree.filesMatching directory pattern).Perm
      ((namesMatching tree directory pattern names).map (Path.join directory)) := by
  have hplace : (if directory.isEmpty then "." else directory) = placeOf directory := rfl
  simp only [filesMatching, hplace, hlist]
  exact List.mergeSort_perm _ _

theorem filesMatching_of_error {failure : FileFailure}
    (hlist : tree.list (placeOf directory) = .error failure) :
    tree.filesMatching directory pattern = [] := by
  have hplace : (if directory.isEmpty then "." else directory) = placeOf directory := rfl
  simp only [filesMatching, hplace, hlist]

theorem mem_filesMatching_iff : file ∈ tree.filesMatching directory pattern ↔
    ∃ name : FileName, file = Path.join directory name.text ∧ tree.isFile file = true ∧
      Wildcard.accepts pattern name.text.toList = true := by
  constructor
  · intro hfile
    cases hlist : tree.list (placeOf directory) with
    | error failure =>
        rw [filesMatching_of_error hlist] at hfile
        exact nomatch hfile
    | ok names =>
        rw [(filesMatching_of_list hlist).mem_iff, List.mem_map] at hfile
        obtain ⟨text, htext, rfl⟩ := hfile
        obtain ⟨hmem, hkept⟩ := List.mem_filter.mp htext
        obtain ⟨hisFile, haccepts⟩ := Bool.and_eq_true_iff.mp hkept
        obtain ⟨route, place, -, -, -, rfl⟩ := list_eq_ok_iff.mp hlist
        obtain ⟨name, -, rfl⟩ := List.mem_map.mp hmem
        exact ⟨name, rfl, (isFile_join_placeOf_iff tree directory name).mp hisFile, haccepts⟩
  · rintro ⟨name, rfl, hisFile, haccepts⟩
    have hplaceFile := (isFile_join_placeOf_iff tree directory name).mpr hisFile
    obtain ⟨names, hlist, hmem⟩ := mem_list_of_isFile_join (placeOf_ne_empty directory) hplaceFile
    rw [(filesMatching_of_list hlist).mem_iff]
    refine List.mem_map_of_mem (List.mem_filter.mpr ⟨hmem, ?_⟩)
    rw [hplaceFile, haccepts]
    rfl

theorem nodup_filesMatching (hdistinct : tree.HasDistinctPlaces) (directory : String)
    (pattern : List Wildcard.Part) : (tree.filesMatching directory pattern).Nodup := by
  cases hlist : tree.list (placeOf directory) with
  | error failure =>
      rw [filesMatching_of_error hlist]
      exact List.nodup_nil
  | ok names =>
      rw [(filesMatching_of_list hlist).nodup_iff]
      obtain ⟨route, place, -, -, -, rfl⟩ := list_eq_ok_iff.mp hlist
      have hnames := hdistinct.nodup_namesIn place
      rw [namesMatching, List.filter_map, List.map_map]
      refine (hnames.filter _).map fun name other hsame => Path.join_injective directory hsame

/-- The order of paths in upper case. -/
def NotAbove (first second : String) : Prop := Text.upper first ≤ Text.upper second

theorem pairwise_filesMatching (tree : FileTree) (directory : String)
    (pattern : List Wildcard.Part) :
    (tree.filesMatching directory pattern).Pairwise NotAbove := by
  have horder : ∀ first second : String,
      (ordinal (Text.upper first) (Text.upper second) != .gt) = true ↔ NotAbove first second := by
    intro first second
    rw [bne_iff_ne, Ne, ordinal_eq_gt_iff, not_lt]
    rfl
  rw [filesMatching]
  split
  · exact List.Pairwise.nil
  · refine (List.pairwise_mergeSort ?_ ?_ _).imp fun {first second} hle =>
      (horder first second).mp hle
    · intro first second third hfirst hsecond
      exact (horder _ _).mpr (((horder _ _).mp hfirst).trans ((horder _ _).mp hsecond))
    · intro first second
      rw [Bool.or_eq_true, horder, horder]
      exact le_total _ _

/-! ## The expansion -/

/-- The path is a pattern for files that are not yet there under its own name. -/
def IsPattern (tree : FileTree) (path : String) (pattern : List Wildcard.Part) : Prop :=
  tree.pathExists path = false ∧ patternOf? path = some pattern

theorem value_expansion_of_isPattern (hpattern : tree.IsPattern path pattern) :
    (tree.expansion path).value = tree.filesMatching (directoryPath path) pattern := by
  obtain ⟨hmissing, hspelled⟩ := hpattern
  obtain ⟨name, hname, hread⟩ := Option.bind_eq_some_iff.mp hspelled
  cases hok : Wildcard.read name with
  | error violation =>
      rw [hok] at hread
      exact nomatch hread
  | ok parts =>
      obtain rfl : parts = pattern := by
        rw [hok] at hread
        exact Option.some.inj hread
      simp [expansion, hmissing, hname, hok, directoryPath]

theorem value_expansion_of_not_isPattern (hnot : ∀ pattern, ¬ tree.IsPattern path pattern) :
    (tree.expansion path).value = [] := by
  unfold expansion
  split
  · rfl
  · next hexists =>
    have hmissing := Bool.eq_false_of_not_eq_true hexists
    split
    · rfl
    · next name hname =>
      split
      · next pattern hread =>
        refine absurd ⟨hmissing, ?_⟩ (hnot pattern)
        rw [patternOf?, hname, Option.bind_some, hread]
        rfl
      · rfl

theorem mem_expansion_iff : file ∈ (tree.expansion path).value ↔
    ∃ pattern, tree.IsPattern path pattern ∧ tree.IsMatch path pattern file := by
  by_cases hpattern : ∃ pattern, tree.IsPattern path pattern
  · obtain ⟨pattern, hpattern⟩ := hpattern
    rw [value_expansion_of_isPattern hpattern, mem_filesMatching_iff]
    refine ⟨fun hmatch => ⟨pattern, hpattern, hmatch⟩, ?_⟩
    rintro ⟨other, hother, hmatch⟩
    obtain rfl : pattern = other := Option.some.inj (hpattern.2.symm.trans hother.2)
    exact hmatch
  · rw [value_expansion_of_not_isPattern fun pattern hnot => hpattern ⟨pattern, hnot⟩]
    exact ⟨nofun, fun ⟨pattern, hother, _⟩ => absurd ⟨pattern, hother⟩ hpattern⟩

theorem nodup_expansion (hdistinct : tree.HasDistinctPlaces) (path : String) :
    (tree.expansion path).value.Nodup := by
  by_cases hpattern : ∃ pattern, tree.IsPattern path pattern
  · obtain ⟨pattern, hpattern⟩ := hpattern
    rw [value_expansion_of_isPattern hpattern]
    exact nodup_filesMatching hdistinct _ _
  · rw [value_expansion_of_not_isPattern fun pattern hnot => hpattern ⟨pattern, hnot⟩]
    exact List.nodup_nil

theorem pairwise_expansion (tree : FileTree) (path : String) :
    (tree.expansion path).value.Pairwise NotAbove := by
  by_cases hpattern : ∃ pattern, tree.IsPattern path pattern
  · obtain ⟨pattern, hpattern⟩ := hpattern
    rw [value_expansion_of_isPattern hpattern]
    exact pairwise_filesMatching _ _ _
  · rw [value_expansion_of_not_isPattern fun pattern hnot => hpattern ⟨pattern, hnot⟩]
    exact List.Pairwise.nil

/-! ## All files, or the only one -/

theorem value_expandAll (tree : FileTree) (path : String) :
    (tree.expandAll path).value =
      if (tree.expansion path).value = [] then [path] else (tree.expansion path).value := by
  unfold expandAll
  rw [Logged.value_bind]
  cases (tree.expansion path).value with
  | nil => rfl
  | cons first rest => rfl

theorem value_expandSingle (tree : FileTree) (path : String) :
    (tree.expandSingle path).value =
      match (tree.expansion path).value with
      | [file] => file
      | _ => path := by
  unfold expandSingle
  rw [Logged.value_bind]
  cases (tree.expansion path).value with
  | nil => rfl
  | cons first rest =>
      cases rest with
      | nil => rfl
      | cons second rest => rfl

theorem value_expansion_of_pathExists (hexists : tree.pathExists path = true) :
    (tree.expansion path).value = [] := by
  simp [expansion, hexists]

theorem value_expandAll_of_pathExists (hexists : tree.pathExists path = true) :
    (tree.expandAll path).value = [path] := by
  rw [value_expandAll, value_expansion_of_pathExists hexists, if_pos rfl]

/-- What a path stands for is kept when it is expanded in turn. -/
theorem value_expandAll_of_mem (hfile : file ∈ (tree.expandAll path).value) :
    (tree.expandAll file).value = [file] := by
  by_cases hnone : (tree.expansion path).value = []
  · have hkept : (tree.expandAll path).value = [path] := by rw [value_expandAll, if_pos hnone]
    rw [hkept, List.mem_singleton] at hfile
    rw [hfile, hkept]
  · rw [value_expandAll, if_neg hnone] at hfile
    obtain ⟨pattern, -, name, -, hisFile, -⟩ := mem_expansion_iff.mp hfile
    exact value_expandAll_of_pathExists (pathExists_of_isFile hisFile)

/-- Expanding to a single file gives the only one there is, or else the path. -/
theorem value_expandSingle_eq (tree : FileTree) (path : String) :
    (∀ file, (tree.expandAll path).value = [file] → (tree.expandSingle path).value = file) ∧
    ((∀ file, (tree.expandAll path).value ≠ [file]) → (tree.expandSingle path).value = path) := by
  rw [value_expandAll, value_expandSingle]
  cases (tree.expansion path).value with
  | nil => simp
  | cons first rest =>
      cases rest with
      | nil => simp
      | cons second rest => simp

/-- The file that a path is replaced with exists, so it is kept in turn. -/
theorem value_expandSingle_again (tree : FileTree) (path : String) :
    (tree.expandSingle (tree.expandSingle path).value).value = (tree.expandSingle path).value := by
  by_cases hone : ∃ file, (tree.expandAll path).value = [file]
  · obtain ⟨file, hfile⟩ := hone
    have hmem : file ∈ (tree.expandAll path).value := hfile ▸ List.mem_singleton_self file
    rw [(value_expandSingle_eq tree path).1 file hfile]
    exact (value_expandSingle_eq tree file).1 file (value_expandAll_of_mem hmem)
  · have hkept := (value_expandSingle_eq tree path).2 fun file hfile => hone ⟨file, hfile⟩
    rw [hkept, hkept]

/-- **Main statement.**  A path is kept if it exists, if its last component is no pattern, or if
the pattern matches nothing.  Else it stands for just the files of its directory whose names
match, each joined to the directory of the path, once, and in the order of the paths in upper
case.  What a path stands for is kept when it is expanded again.  Where only one file is
wanted, it is the only element of the list if the list has one, and else the path. -/
theorem expansion_of_path (tree : FileTree) (hdistinct : tree.HasDistinctPlaces) (path : String) :
    let all := (tree.expandAll path).value
    let single := (tree.expandSingle path).value
    ((tree.pathExists path = true ∨ patternOf? path = none ∨
      (∀ pattern, patternOf? path = some pattern → ∀ file, ¬ tree.IsMatch path pattern file)) →
        all = [path]) ∧
    (∀ pattern, tree.pathExists path = false → patternOf? path = some pattern →
      (∃ file, tree.IsMatch path pattern file) →
        (∀ file, file ∈ all ↔ tree.IsMatch path pattern file) ∧ all.Nodup ∧
          all.Pairwise fun earlier later => Text.upper earlier ≤ Text.upper later) ∧
    (∀ file ∈ all, (tree.expandAll file).value = [file]) ∧
    (tree.expandSingle single).value = single ∧
    (∀ file, all = [file] → single = file) ∧
    ((∀ file, all ≠ [file]) → single = path) := by
  refine ⟨?_, ?_, fun file => value_expandAll_of_mem, value_expandSingle_again tree path,
    (value_expandSingle_eq tree path).1, (value_expandSingle_eq tree path).2⟩
  · intro hkept
    have hnone : (tree.expansion path).value = [] := by
      rw [List.eq_nil_iff_forall_not_mem]
      intro file hfile
      obtain ⟨pattern, ⟨hmissing, hspelled⟩, hmatch⟩ := mem_expansion_iff.mp hfile
      rcases hkept with hexists | hunspelled | hunmatched
      · rw [hmissing] at hexists
        exact nomatch hexists
      · rw [hspelled] at hunspelled
        exact nomatch hunspelled
      · exact hunmatched pattern hspelled file hmatch
    exact (value_expandAll tree path).trans (if_pos hnone)
  · intro pattern hmissing hspelled hsome
    have hmem : ∀ file, file ∈ (tree.expansion path).value ↔ tree.IsMatch path pattern file := by
      intro file
      rw [value_expansion_of_isPattern ⟨hmissing, hspelled⟩]
      exact mem_filesMatching_iff
    obtain ⟨file, hfile⟩ := hsome
    have hall : (tree.expandAll path).value = (tree.expansion path).value :=
      (value_expandAll tree path).trans (if_neg (List.ne_nil_of_mem ((hmem file).mpr hfile)))
    exact ⟨fun other => hall ▸ hmem other, hall ▸ nodup_expansion hdistinct path,
      hall ▸ pairwise_expansion tree path⟩

/-- Two files, of which one has a name that looks like a pattern, and a directory. -/
def oddNames : FileTree :=
  ((({} : FileTree).put [⟨"A.json", by cbv⟩] (.file "a".toUTF8)).put [⟨"[ab].json", by cbv⟩]
    (.file "either".toUTF8)).put [⟨"c.json", by cbv⟩] .directory

/-- The pattern matches both files; the one that looks like a pattern is kept in turn, and does
not stand for the other one. -/
theorem expansion_of_oddNames :
    oddNames.HasDistinctPlaces ∧ oddNames.pathExists "?*.json" = false ∧
      (oddNames.expandAll "?*.json").value.Nodup ∧
      "A.json" ∈ (oddNames.expandAll "?*.json").value ∧
      "[ab].json" ∈ (oddNames.expandAll "?*.json").value ∧
      "c.json" ∉ (oddNames.expandAll "?*.json").value ∧
      (oddNames.expandAll "[ab].json").value = ["[ab].json"] := by
  have hdistinct : oddNames.HasDistinctPlaces :=
    ((hasDistinctPlaces_empty.put _ _).put _ _).put _ _
  have hmissing : oddNames.pathExists "?*.json" = false := by cbv
  have hspelled : patternOf? "?*.json" = some [.anyLetter, .anyRun, .letter '.', .letter 'j',
      .letter 's', .letter 'o', .letter 'n'] := by cbv
  have hplain : oddNames.IsMatch "?*.json" [.anyLetter, .anyRun, .letter '.', .letter 'j',
      .letter 's', .letter 'o', .letter 'n'] "A.json" :=
    ⟨⟨"A.json", by cbv⟩, by cbv, by cbv, by cbv⟩
  have hodd : oddNames.IsMatch "?*.json" [.anyLetter, .anyRun, .letter '.', .letter 'j',
      .letter 's', .letter 'o', .letter 'n'] "[ab].json" :=
    ⟨⟨"[ab].json", by cbv⟩, by cbv, by cbv, by cbv⟩
  have hdirectory : oddNames.isFile "c.json" = false := by cbv
  obtain ⟨-, hmatched, hagain, -⟩ := expansion_of_path oddNames hdistinct "?*.json"
  obtain ⟨hmem, hnodup, -⟩ := hmatched _ hmissing hspelled ⟨_, hplain⟩
  refine ⟨hdistinct, hmissing, hnodup, (hmem _).mpr hplain, (hmem _).mpr hodd, ?_,
    hagain _ ((hmem _).mpr hodd)⟩
  intro hlisted
  obtain ⟨-, -, hfile, -⟩ := (hmem _).mp hlisted
  rw [hdirectory] at hfile
  cases hfile

end FileTree

end ActivityCatalogue
