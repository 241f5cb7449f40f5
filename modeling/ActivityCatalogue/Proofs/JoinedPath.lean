import ActivityCatalogue.Proofs.OrdinaryPath

/-!
# Names joined to the path of a directory

What a directory holds can be met in two ways: in its list, and at the path that joins a name
to the path of the directory.  Both agree for files.  A file at the joined path is in the list
(`mem_list_of_isFile_join`), since the joined path tells the steps to the directory and one
step down (`Path.steps_join`).  The working directory has the empty path and the path `.`,
and a file in it is met with either of them (`isFile_join_dot_iff`).
-/

namespace ActivityCatalogue

namespace Text

theorem cut_append_separator (separator : Char) (text rest : List Char) :
    cut separator (text ++ separator :: rest) = ((cut separator text).1,
      (cut separator text).2 ++ (cut separator rest).1 :: (cut separator rest).2) := by
  induction text with
  | nil => exact if_pos rfl
  | cons c text ih =>
      rw [List.cons_append, cut_cons, ih, cut_cons]
      split
      · rfl
      · rfl

theorem pieces_ofList_append (separator : Char) (text rest : List Char) :
    pieces separator (String.ofList (text ++ separator :: rest)) =
      pieces separator (String.ofList text) ++ pieces separator (String.ofList rest) := by
  unfold pieces
  simp [cut_append_separator]

theorem pieces_of_not_mem {separator : Char} {text : String} (hmem : separator ∉ text.toList) :
    pieces separator text = [text] := by
  unfold pieces
  simp [cut_of_not_mem hmem]

end Text

namespace Path

variable {base : String} {name : FileName}

theorem not_mem_name (name : FileName) : '/' ∉ name.text.toList :=
  (isName_iff.mp name.isName).1.noSlash

theorem name_ne_nil (name : FileName) : name.text.toList ≠ [] := fun hnil =>
  (isName_iff.mp name.isName).2 (String.toList_eq_nil_iff.mp hnil)

theorem isAbsolute_name (name : FileName) : isAbsolute name.text = false := by
  rw [isAbsolute, beq_eq_false_iff_ne]
  exact fun hhead => not_mem_name name (List.mem_of_head? hhead)

/-- The slash between a directory and a name, unless the directory ends with one. -/
def joint (base : String) : List Char := if base.toList.getLast? = some '/' then [] else ['/']

theorem toList_join (hbase : base ≠ "") (name : FileName) :
    (join base name.text).toList = base.toList ++ joint base ++ name.text.toList := by
  have hempty : base.isEmpty = false := by simpa using hbase
  unfold join joint
  simp only [isAbsolute_name, hempty, Bool.or_self, Bool.false_eq_true, if_false, beq_iff_eq]
  split
  · rw [String.toList_append, List.append_nil]
  · rw [String.toList_append, String.toList_append]
    rfl

theorem join_empty (name : FileName) : join "" name.text = name.text := by
  unfold join
  simp

theorem join_injective (base : String) {other : FileName}
    (hsame : join base name.text = join base other.text) : name = other := by
  have htext : name.text.toList = other.text.toList := by
    by_cases hbase : base = ""
    · subst hbase
      rw [join_empty, join_empty] at hsame
      rw [hsame]
    · have hlists := congrArg String.toList hsame
      rw [toList_join hbase, toList_join hbase] at hlists
      exact List.append_cancel_left hlists
  obtain ⟨text, hname⟩ := name
  obtain rfl : text = other.text := String.toList_inj.mp htext
  rfl

/-! ## The steps of a joined path -/

theorem steps_name (name : FileName) : steps name.text = [.down name] := by
  rw [steps, Text.pieces_of_not_mem (not_mem_name name)]
  exact List.filterMap_cons_some (dif_pos name.isName)

/-- A joined path tells the steps to the directory, and one step down. -/
theorem steps_join (hbase : base ≠ "") (name : FileName) :
    steps (join base name.text) = steps base ++ [Step.down name] := by
  have hjoin := toList_join hbase name
  rw [← steps_name name, ← String.ofList_toList (s := join base name.text), hjoin, joint]
  split
  · next hslash =>
    -- the slash is the last character of the directory, and the piece behind it is empty
    obtain ⟨front, hfront⟩ := List.getLast?_eq_some_iff.mp hslash
    have hpieces : Text.pieces '/' base = Text.pieces '/' (String.ofList front) ++ [""] := by
      rw [← String.ofList_toList (s := base), hfront, Text.pieces_ofList_append]
      rfl
    rw [hfront, List.append_nil, List.append_assoc, List.singleton_append, steps,
      Text.pieces_ofList_append, List.filterMap_append, steps, hpieces, List.filterMap_append,
      String.ofList_toList]
    have hidle : Step.ofComponent? "" = none := rfl
    rw [List.filterMap_cons_none hidle, List.filterMap_nil, List.append_nil]
    rfl
  · rw [List.append_assoc, List.singleton_append, steps, Text.pieces_ofList_append,
      List.filterMap_append, String.ofList_toList, String.ofList_toList]
    rfl

theorem isAbsolute_join (hbase : base ≠ "") (name : FileName) :
    isAbsolute (join base name.text) = isAbsolute base := by
  obtain ⟨c, rest, hcons⟩ := List.exists_cons_of_ne_nil
    (fun hnil => hbase (String.toList_eq_nil_iff.mp hnil))
  rw [isAbsolute, isAbsolute, toList_join hbase, hcons]
  rfl

theorem join_eq_append (hbase : base ≠ "") (name : FileName) :
    join base name.text = base ++ String.ofList (joint base ++ name.text.toList) := by
  apply String.toList_inj.mp
  rw [toList_join hbase, String.toList_append, String.toList_ofList, List.append_assoc]

theorem getLast?_join (hbase : base ≠ "") (name : FileName) :
    (join base name.text).toList.getLast? ≠ some '/' := by
  rw [toList_join hbase, List.getLast?_append_of_ne_nil _ (name_ne_nil name)]
  exact fun hslash => not_mem_name name (List.mem_of_getLast? hslash)

end Path

/-! ## Where a joined path leads -/

namespace FileTree

variable {tree : FileTree} {base path : String} {name : FileName} {place : Place}

/-- Where a path without a slash at its end has a file. -/
theorem isFile_iff_follow (hslash : path.toList.getLast? ≠ some '/') :
    tree.isFile path = true ↔
      (path ≠ "" ∧ '\x00' ∉ path.toList ∧ path.utf8ByteSize ≤ Route.maxPathSize) ∧
      ∃ place content,
        tree.follow (if Path.isAbsolute path then [] else tree.workingDirectory)
          (Path.steps path) = .ok place ∧ tree.at? place = some (.file content) := by
  rw [isFile_iff]
  constructor
  · rintro ⟨content, hfind⟩
    obtain ⟨route, place, hroute, hplace, hnode, -⟩ := find_eq_file_iff.mp hfind
    obtain ⟨hne, hnul, hsize, rfl⟩ := Route.ofPath_eq_ok_iff.mp hroute
    rw [locate_eq] at hplace
    exact ⟨⟨hne, hnul, hsize⟩, place, content, hplace, hnode⟩
  · rintro ⟨⟨hne, hnul, hsize⟩, place, content, hplace, hnode⟩
    rw [← locate_eq tree (Path.isAbsolute path) false] at hplace
    have hroute := Route.ofPath_eq_ok_iff.mpr ⟨hne, hnul, hsize, rfl⟩
    rw [beq_eq_false_iff_ne.mpr hslash] at hroute
    exact ⟨content, find_eq_file_iff.mpr ⟨_, place, hroute, hplace, hnode, rfl⟩⟩

/-- A file at a joined path is in the directory to which the path leads. -/
theorem exists_of_isFile_join (hbase : base ≠ "")
    (hfile : tree.isFile (Path.join base name.text) = true) :
    ∃ route place content, Route.ofPath base = .ok route ∧ tree.locate route = .ok place ∧
      tree.at? place = some .directory ∧ tree.at? (place ++ [name]) = some (.file content) := by
  obtain ⟨⟨-, hnul, hsize⟩, final, content, hfinal, hnode⟩ :=
    (isFile_iff_follow (Path.getLast?_join hbase name)).mp hfile
  have hroute : Route.ofPath base = .ok ⟨Path.isAbsolute base, Path.steps base,
      base.toList.getLast? == some '/'⟩ := by
    refine Route.ofPath_eq_ok_iff.mpr ⟨hbase, fun hmem => hnul ?_, ?_, rfl⟩
    · rw [Path.toList_join hbase]
      exact List.mem_append_left _ (List.mem_append_left _ hmem)
    · rw [Path.join_eq_append hbase, String.utf8ByteSize_append] at hsize
      omega
  rw [Path.isAbsolute_join hbase, Path.steps_join hbase] at hfinal
  obtain ⟨place, hplace, hdown⟩ := follow_append_eq_ok_iff.mp hfinal
  obtain ⟨hdirectory, -, rfl⟩ := follow_down_eq_ok_iff.mp hdown
  rw [← locate_eq tree (Path.isAbsolute base) (base.toList.getLast? == some '/')] at hplace
  exact ⟨_, place, content, hroute, hplace, hdirectory, hnode⟩

/-- The working directory can be left out of a path. -/
theorem isFile_join_dot_iff (tree : FileTree) (name : FileName) :
    tree.isFile (Path.join "." name.text) = true ↔ tree.isFile name.text = true := by
  have hdot : ("." : String) ≠ "" := by decide
  have hlist : (Path.join "." name.text).toList = '.' :: '/' :: name.text.toList := by
    rw [Path.toList_join hdot]
    rfl
  have hsize : (Path.join "." name.text).utf8ByteSize = 2 + name.text.utf8ByteSize := by
    have htext : Path.join "." name.text = "./" ++ name.text := by
      apply String.toList_inj.mp
      rw [hlist, String.toList_append]
      rfl
    rw [htext, String.utf8ByteSize_append]
    rfl
  have hne : name.text ≠ "" := (Path.isName_iff.mp name.isName).2
  have hslash : name.text.toList.getLast? ≠ some '/' := fun hmem =>
    Path.not_mem_name name (List.mem_of_getLast? hmem)
  have hnul : '\x00' ∈ (Path.join "." name.text).toList ↔ '\x00' ∈ name.text.toList := by
    rw [hlist]
    simp
  have hdotNe : Path.join "." name.text ≠ "" := by
    intro hempty
    rw [hempty] at hlist
    exact nomatch hlist
  -- the step that stays needs a directory, and so does the one down
  have hfollow : ∀ final, tree.follow tree.workingDirectory [.stay, .down name] = .ok final ↔
      tree.follow tree.workingDirectory [.down name] = .ok final := by
    intro final
    rw [follow_cons_eq_ok_iff]
    simp only [Step.next, Except.ok.injEq, exists_eq_left', and_iff_right_iff_imp]
    exact fun hdown => (follow_down_eq_ok_iff.mp hdown).1
  have hsteps : Path.steps (Path.join "." name.text) = [.stay, .down name] :=
    Path.steps_join hdot name
  have habsolute : Path.isAbsolute (Path.join "." name.text) = false :=
    Path.isAbsolute_join hdot name
  rw [isFile_iff_follow (Path.getLast?_join hdot name), isFile_iff_follow hslash, hsteps,
    habsolute, Path.steps_name, Path.isAbsolute_name, hsize, hnul]
  simp only [Bool.false_eq_true, if_false, hfollow]
  constructor
  · rintro ⟨⟨-, hmem, hfits⟩, hfile⟩
    exact ⟨⟨hne, hmem, by omega⟩, hfile⟩
  · rintro ⟨⟨-, hmem, -⟩, place, content, hplace, hnode⟩
    -- a name that can be followed is far shorter than a path may be
    have hshort := (follow_down_eq_ok_iff.mp hplace).2.1
    rw [Step.maxNameSize] at hshort
    exact ⟨⟨hdotNe, hmem, by rw [Route.maxPathSize]; omega⟩, place, content, hplace, hnode⟩

/-! ## The list of a directory -/

theorem childName?_eq_some_iff {directory : Place} :
    childName? directory place = some name ↔ place = directory ++ [name] := by
  unfold childName?
  cases hlast : place.getLast? with
  | none =>
      rw [List.getLast?_eq_none_iff] at hlast
      subst hlast
      simp
  | some last =>
      obtain ⟨front, rfl⟩ := List.getLast?_eq_some_iff.mp hlast
      simp only [List.dropLast_concat]
      split_ifs with hfront
      · simp [hfront]
      · simp [hfront]

theorem mem_namesIn_iff {directory : Place} :
    name ∈ tree.namesIn directory ↔ ∃ node, (directory ++ [name], node) ∈ tree.entries := by
  rw [namesIn, (List.mergeSort_perm _ _).mem_iff, List.mem_filterMap]
  constructor
  · rintro ⟨⟨place, node⟩, hentry, hname⟩
    obtain rfl := childName?_eq_some_iff.mp hname
    exact ⟨node, hentry⟩
  · rintro ⟨node, hentry⟩
    exact ⟨_, hentry, childName?_eq_some_iff.mpr rfl⟩

theorem mem_namesIn_of_at? {directory : Place} {node : FileNode}
    (hnode : tree.at? (directory ++ [name]) = some node) : name ∈ tree.namesIn directory := by
  refine mem_namesIn_iff.mpr ⟨node, ?_⟩
  obtain ⟨first, more, hcons⟩ := List.exists_cons_of_ne_nil
    (List.append_ne_nil_of_right_ne_nil directory (List.cons_ne_nil name []))
  rw [hcons] at hnode ⊢
  obtain ⟨before, behind, heq, -⟩ := List.lookup_eq_some_iff.mp hnode
  rw [heq]
  exact List.mem_append_right _ List.mem_cons_self

/-- A file at a joined path is in the list of the directory. -/
theorem mem_list_of_isFile_join (hbase : base ≠ "")
    (hfile : tree.isFile (Path.join base name.text) = true) :
    ∃ names, tree.list base = .ok names ∧ name.text ∈ names := by
  obtain ⟨route, place, content, hroute, hplace, hdirectory, hnode⟩ :=
    exists_of_isFile_join hbase hfile
  exact ⟨_, list_eq_ok_iff.mpr ⟨route, place, hroute, hplace, hdirectory, rfl⟩,
    List.mem_map_of_mem (mem_namesIn_of_at? hnode)⟩

/-- Each place of the tree has one entry.  Whatever is put into a tree or removed from it, this
stays so. -/
def HasDistinctPlaces (tree : FileTree) : Prop := (tree.entries.map Prod.fst).Nodup

theorem hasDistinctPlaces_empty : HasDistinctPlaces {} := List.nodup_nil

theorem HasDistinctPlaces.remove (hdistinct : tree.HasDistinctPlaces) (place : Place) :
    (tree.remove place).HasDistinctPlaces :=
  hdistinct.sublist (List.filter_sublist.map _)

theorem HasDistinctPlaces.put (hdistinct : tree.HasDistinctPlaces) (place : Place)
    (node : FileNode) : (tree.put place node).HasDistinctPlaces := by
  refine List.nodup_cons.mpr ⟨?_, hdistinct.remove place⟩
  intro hmem
  obtain ⟨entry, hentry, hplace⟩ := List.mem_map.mp hmem
  have hother := (List.mem_filter.mp hentry).2
  rw [bne_iff_ne] at hother
  exact hother hplace

theorem HasDistinctPlaces.nodup_namesIn (hdistinct : tree.HasDistinctPlaces) (directory : Place) :
    (tree.namesIn directory).Nodup := by
  rw [namesIn, (List.mergeSort_perm _ _).nodup_iff]
  have hmap : tree.entries.filterMap (fun entry => childName? directory entry.1) =
      (tree.entries.map Prod.fst).filterMap (childName? directory) := by
    rw [List.filterMap_map]
    rfl
  rw [hmap]
  refine List.Nodup.filterMap ?_ hdistinct
  intro place other name hplace hother
  rw [childName?_eq_some_iff.mp hplace, childName?_eq_some_iff.mp hother]

end FileTree

end ActivityCatalogue
