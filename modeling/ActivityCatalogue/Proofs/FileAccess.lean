import ActivityCatalogue.File.Access
import ActivityCatalogue.Proofs.Attempts

/-!
# When an operation on a file tree succeeds

Each operation follows a path and then looks at one place.  What it takes for it to succeed,
and what it gives then, is said once for each of them: following steps (`follow_cons_eq_ok_iff`),
finding (`find_eq_ok_iff`), listing (`list_eq_ok_iff`), making a directory
(`makeDirectory_eq_ok_iff`), writing (`write_eq_ok_iff`) and moving (`exists_of_move`).
-/

namespace ActivityCatalogue

/-- The steps that a path tells. -/
def Path.steps (path : String) : List Step := (Text.pieces '/' path).filterMap Step.ofComponent?

theorem Route.ofPath_eq_ok_iff {path : String} {route : Route} :
    Route.ofPath path = .ok route ↔ path ≠ "" ∧ '\x00' ∉ path.toList ∧
      path.utf8ByteSize ≤ maxPathSize ∧
      route = ⟨Path.isAbsolute path, Path.steps path, path.toList.getLast? == some '/'⟩ := by
  rw [Route.ofPath, String.contains_char_eq]
  split
  · next hempty =>
    refine ⟨fun hok => ?_, fun h => absurd (String.isEmpty_iff.mp hempty) h.1⟩
    cases hok
  · next hempty =>
    split
    · next hnul =>
      refine ⟨fun hok => ?_, fun h => absurd (of_decide_eq_true hnul) h.2.1⟩
      cases hok
    · next hnul =>
      split
      · next hsize =>
        refine ⟨fun hok => ?_, fun h => absurd h.2.2.1 (Nat.not_le_of_lt hsize)⟩
        cases hok
      · next hsize =>
        rw [String.isEmpty_iff] at hempty
        rw [decide_eq_true_iff] at hnul
        rw [Except.ok.injEq]
        exact ⟨fun heq => ⟨hempty, hnul, Nat.le_of_not_lt hsize, heq.symm⟩,
          fun h => h.2.2.2.symm⟩

namespace FileTree

variable {tree other : FileTree} {place origin final : Place} {path source target : String}
  {name : FileName}

/-! ## Following steps -/

theorem enter_eq_ok_iff : tree.enter place = .ok () ↔ tree.at? place = some .directory := by
  unfold enter
  cases hnode : tree.at? place with
  | none => simp
  | some node =>
      cases node with
      | directory => simp
      | file content => simp

/-- There is no way past a place that is not a directory. -/
theorem follow_cons_eq_ok_iff {step : Step} {further : List Step} {final : Place} :
    tree.follow place (step :: further) = .ok final ↔
      tree.at? place = some .directory ∧
        ∃ next, step.next place = .ok next ∧ tree.follow next further = .ok final := by
  rw [follow]
  constructor
  · intro hfollow
    obtain ⟨_, hentered, hfollow⟩ := bind_eq_ok_iff.mp hfollow
    obtain ⟨next, hnext, hfurther⟩ := bind_eq_ok_iff.mp hfollow
    exact ⟨enter_eq_ok_iff.mp hentered, next, hnext, hfurther⟩
  · rintro ⟨hdirectory, next, hnext, hfurther⟩
    exact bind_eq_ok_iff.mpr ⟨(), enter_eq_ok_iff.mpr hdirectory,
      bind_eq_ok_iff.mpr ⟨next, hnext, hfurther⟩⟩

theorem follow_append_eq_ok_iff {steps more : List Step} :
    tree.follow origin (steps ++ more) = .ok final ↔
      ∃ place, tree.follow origin steps = .ok place ∧ tree.follow place more = .ok final := by
  induction steps generalizing origin with
  | nil =>
      constructor
      · exact fun hmore => ⟨origin, rfl, hmore⟩
      · rintro ⟨place, hplace, hmore⟩
        obtain rfl := Except.ok.inj hplace
        exact hmore
  | cons step steps ih =>
      rw [List.cons_append, follow_cons_eq_ok_iff]
      simp only [follow_cons_eq_ok_iff, ih]
      constructor
      · rintro ⟨hdirectory, next, hnext, place, hsteps, hmore⟩
        exact ⟨place, ⟨hdirectory, next, hnext, hsteps⟩, hmore⟩
      · rintro ⟨place, ⟨hdirectory, next, hnext, hsteps⟩, hmore⟩
        exact ⟨hdirectory, next, hnext, place, hsteps, hmore⟩

theorem follow_down_eq_ok_iff :
    tree.follow origin [.down name] = .ok final ↔ tree.at? origin = some .directory ∧
      name.text.utf8ByteSize ≤ Step.maxNameSize ∧ final = origin ++ [name] := by
  rw [follow_cons_eq_ok_iff]
  constructor
  · rintro ⟨hdirectory, next, hnext, hfinal⟩
    obtain rfl := Except.ok.inj hfinal
    rw [Step.next] at hnext
    split at hnext
    · next hsize => exact ⟨hdirectory, hsize, (Except.ok.inj hnext).symm⟩
    · cases hnext
  · rintro ⟨hdirectory, hsize, rfl⟩
    exact ⟨hdirectory, _, if_pos hsize, rfl⟩

/-- Rewriting with this keeps the steps as they are given, where unfolding would cut the path. -/
theorem locate_eq (tree : FileTree) (fromRoot endsWithSlash : Bool) (steps : List Step) :
    tree.locate ⟨fromRoot, steps, endsWithSlash⟩ =
      tree.follow (if fromRoot then [] else tree.workingDirectory) steps := rfl

/-! ## Asking -/

/-- What is found is at the place to which the path leads.  With a slash at the end of the
path it is a directory. -/
theorem find_eq_ok_iff {node : FileNode} : tree.find path = .ok node ↔
    ∃ route place, Route.ofPath path = .ok route ∧ tree.locate route = .ok place ∧
      tree.at? place = some node ∧ (route.endsWithSlash = true → node = .directory) := by
  unfold find
  constructor
  · intro hfind
    obtain ⟨route, hroute, hfind⟩ := bind_eq_ok_iff.mp hfind
    obtain ⟨place, hplace, hfind⟩ := bind_eq_ok_iff.mp hfind
    refine ⟨route, place, hroute, hplace, ?_⟩
    split at hfind
    · cases hfind
    · next hnode =>
      cases hfind
      exact ⟨hnode, fun _ => rfl⟩
    · next content hnode =>
      split at hfind
      · cases hfind
      · next hslash =>
        cases hfind
        exact ⟨hnode, fun h => absurd h hslash⟩
  · rintro ⟨route, place, hroute, hplace, hnode, hslash⟩
    refine bind_eq_ok_iff.mpr ⟨route, hroute, bind_eq_ok_iff.mpr ⟨place, hplace, ?_⟩⟩
    rw [hnode]
    cases node with
    | directory => rfl
    | file content => exact if_neg fun h => FileNode.noConfusion (hslash h)

theorem find_eq_file_iff {content : ByteArray} : tree.find path = .ok (.file content) ↔
    ∃ route place, Route.ofPath path = .ok route ∧ tree.locate route = .ok place ∧
      tree.at? place = some (.file content) ∧ route.endsWithSlash = false := by
  simp [find_eq_ok_iff]

theorem pathExists_of_find {node : FileNode} (hfind : tree.find path = .ok node) :
    tree.pathExists path = true := by
  rw [pathExists, hfind]

theorem isFile_iff :
    tree.isFile path = true ↔ ∃ content, tree.find path = .ok (.file content) := by
  unfold isFile
  rcases tree.find path with failure | _ | content
  · exact iff_of_false nofun nofun
  · exact iff_of_false nofun nofun
  · exact iff_of_true rfl ⟨content, rfl⟩

theorem isDirectory_iff : tree.isDirectory path = true ↔ tree.find path = .ok .directory := by
  unfold isDirectory
  rcases tree.find path with failure | _ | content
  · exact iff_of_false nofun nofun
  · exact iff_of_true rfl rfl
  · exact iff_of_false nofun nofun

theorem readText_eq_ok_iff {text : String} : tree.readText path = .ok text ↔
    ∃ content, tree.find path = .ok (.file content) ∧ String.fromUTF8? content = some text := by
  unfold readText
  constructor
  · intro hread
    obtain ⟨node, hfind, hread⟩ := bind_eq_ok_iff.mp hread
    split at hread
    · cases hread
    · next content =>
      split at hread
      · next htext =>
        cases hread
        exact ⟨content, hfind, htext⟩
      · cases hread
  · rintro ⟨content, hfind, htext⟩
    refine bind_eq_ok_iff.mpr ⟨_, hfind, ?_⟩
    simp only [htext]

theorem list_eq_ok_iff {names : List String} : tree.list path = .ok names ↔
    ∃ route place, Route.ofPath path = .ok route ∧ tree.locate route = .ok place ∧
      tree.at? place = some .directory ∧ names = (tree.namesIn place).map FileName.text := by
  unfold list
  constructor
  · intro hlist
    obtain ⟨route, hroute, hlist⟩ := bind_eq_ok_iff.mp hlist
    obtain ⟨place, hplace, hlist⟩ := bind_eq_ok_iff.mp hlist
    obtain ⟨_, hentered, hlist⟩ := bind_eq_ok_iff.mp hlist
    exact ⟨route, place, hroute, hplace, enter_eq_ok_iff.mp hentered, (Except.ok.inj hlist).symm⟩
  · rintro ⟨route, place, hroute, hplace, hdirectory, rfl⟩
    exact bind_eq_ok_iff.mpr ⟨route, hroute, bind_eq_ok_iff.mpr ⟨place, hplace,
      bind_eq_ok_iff.mpr ⟨(), enter_eq_ok_iff.mpr hdirectory, rfl⟩⟩⟩

/-! ## Changing -/

/-- A directory is made where nothing was. -/
theorem makeDirectory_eq_ok_iff {steps : List Step} : tree.makeDirectory origin steps = .ok other ↔
    ∃ place, tree.follow origin steps = .ok place ∧ tree.at? place = none ∧
      other = tree.put place .directory := by
  unfold makeDirectory
  constructor
  · intro hmade
    obtain ⟨place, hplace, hmade⟩ := bind_eq_ok_iff.mp hmade
    split at hmade
    · cases hmade
    · next hnode => exact ⟨place, hplace, hnode, (Except.ok.inj hmade).symm⟩
  · rintro ⟨place, hplace, hnode, rfl⟩
    refine bind_eq_ok_iff.mpr ⟨place, hplace, ?_⟩
    rw [hnode]

/-- A file is written where there is no directory. -/
theorem write_eq_ok_iff {content : ByteArray} : tree.write path content = .ok other ↔
    ∃ route place, Route.ofPath path = .ok route ∧ tree.locate route = .ok place ∧
      tree.at? place ≠ some .directory ∧ route.endsWithSlash = false ∧
      other = tree.put place (.file content) := by
  unfold write
  constructor
  · intro hwrite
    obtain ⟨route, hroute, hwrite⟩ := bind_eq_ok_iff.mp hwrite
    obtain ⟨place, hplace, hwrite⟩ := bind_eq_ok_iff.mp hwrite
    split at hwrite
    · cases hwrite
    · next hfree =>
      rw [Bool.or_eq_true, decide_eq_true_iff, not_or, Bool.not_eq_true] at hfree
      exact ⟨route, place, hroute, hplace, hfree.1, hfree.2, (Except.ok.inj hwrite).symm⟩
  · rintro ⟨route, place, hroute, hplace, hfree, hslash, rfl⟩
    refine bind_eq_ok_iff.mpr ⟨route, hroute, bind_eq_ok_iff.mpr ⟨place, hplace, ?_⟩⟩
    rw [decide_eq_false hfree, hslash]
    rfl

/-- A file is moved to where there is no directory. -/
theorem exists_of_move (hmove : tree.move source target = .ok other) :
    ∃ sourceRoute sourcePlace route place content,
      Route.ofPath source = .ok sourceRoute ∧ tree.locate sourceRoute = .ok sourcePlace ∧
      tree.at? sourcePlace = some (.file content) ∧
      Route.ofPath target = .ok route ∧ tree.locate route = .ok place ∧
      route.endsWithSlash = false ∧ tree.at? place ≠ some .directory ∧
      other = (tree.remove sourcePlace).put place (.file content) := by
  unfold move at hmove
  obtain ⟨sourceRoute, hsource, hmove⟩ := bind_eq_ok_iff.mp hmove
  obtain ⟨sourcePlace, hsourcePlace, hmove⟩ := bind_eq_ok_iff.mp hmove
  split at hmove
  · cases hmove
  · cases hmove
  · next content hcontent =>
    obtain ⟨route, hroute, hmove⟩ := bind_eq_ok_iff.mp hmove
    obtain ⟨place, hplace, hmove⟩ := bind_eq_ok_iff.mp hmove
    -- a target that does not end with a step down is busy
    split at hmove
    · split at hmove
      · cases hmove
      · next hslash =>
        split at hmove
        · cases hmove
        · next hnode =>
          cases hmove
          exact ⟨sourceRoute, sourcePlace, route, place, content, hsource, hsourcePlace,
            hcontent, hroute, hplace, Bool.eq_false_iff.mpr hslash, hnode, rfl⟩
    all_goals cases hmove

end FileTree

end ActivityCatalogue
