import ActivityCatalogue.File.Replacement
import ActivityCatalogue.Proofs.FileAccess

/-!
# A replaced file is found

Where a path leads depends on nothing but the directories on its way.  Writing a draft and
moving it change places without a directory only, so afterwards both paths lead to where
they led before.  Hence the draft that is moved is the one that was written, and the path
finds the new content (`find_replace`).
-/

namespace ActivityCatalogue

namespace FileTree

variable {tree other : FileTree} {place origin : Place} {path source target : String}

/-! ## Trees with the same directories -/

/-- Every directory of the one tree is a directory of the other, and both have the same
working directory. -/
structure DirectoriesIn (tree other : FileTree) : Prop where
  workingDirectory : other.workingDirectory = tree.workingDirectory
  directory : ∀ place, tree.at? place = some .directory → other.at? place = some .directory

theorem origin_eq (hsame : other.workingDirectory = tree.workingDirectory) (route : Route) :
    other.origin route = tree.origin route := by
  rw [origin, origin, hsame]

/-- The path leads to the place, whatever is there. -/
def LeadsTo (tree : FileTree) (path : String) (place : Place) : Prop :=
  ∃ route, Route.ofPath path = .ok route ∧ tree.locate route = .ok place

theorem LeadsTo.unique {final : Place} (hplace : tree.LeadsTo path place)
    (hfinal : tree.LeadsTo path final) : place = final := by
  obtain ⟨route, hroute, hplace⟩ := hplace
  obtain ⟨same, hsame, hfinal⟩ := hfinal
  obtain rfl : route = same := Except.ok.inj (hroute.symm.trans hsame)
  exact Except.ok.inj (hplace.symm.trans hfinal)

namespace DirectoriesIn

theorem follow (hkept : tree.DirectoriesIn other) {steps : List Step} {final : Place}
    (hfollow : tree.follow origin steps = .ok final) :
    other.follow origin steps = .ok final := by
  induction steps generalizing origin with
  | nil => exact hfollow
  | cons step further ih =>
      obtain ⟨hdirectory, next, hnext, hfurther⟩ := follow_cons_eq_ok_iff.mp hfollow
      exact follow_cons_eq_ok_iff.mpr ⟨hkept.directory _ hdirectory, next, hnext, ih hfurther⟩

/-- A route leads to the same place. -/
theorem locate (hkept : tree.DirectoriesIn other) {route : Route}
    (hlocate : tree.locate route = .ok place) : other.locate route = .ok place := by
  rw [FileTree.locate, origin_eq hkept.workingDirectory]
  exact hkept.follow hlocate

theorem leadsTo (hkept : tree.DirectoriesIn other) (hleads : tree.LeadsTo path place) :
    other.LeadsTo path place := by
  obtain ⟨route, hroute, hplace⟩ := hleads
  exact ⟨route, hroute, hkept.locate hplace⟩

theorem refl (tree : FileTree) : tree.DirectoriesIn tree := ⟨rfl, fun _ => id⟩

theorem trans {last : FileTree} (hfirst : tree.DirectoriesIn other)
    (hsecond : other.DirectoriesIn last) : tree.DirectoriesIn last where
  workingDirectory := hsecond.workingDirectory.trans hfirst.workingDirectory
  directory place hdirectory := hsecond.directory place (hfirst.directory place hdirectory)

theorem put (node : FileNode) (hplace : tree.at? place ≠ some .directory) :
    tree.DirectoriesIn (tree.put place node) where
  workingDirectory := rfl
  directory directory hdirectory := by
    have hne : directory ≠ place := fun heq => hplace (heq ▸ hdirectory)
    rw [at?_put_of_ne tree node hne]
    exact hdirectory

theorem remove (hplace : tree.at? place ≠ some .directory) :
    tree.DirectoriesIn (tree.remove place) where
  workingDirectory := rfl
  directory directory hdirectory := by
    have hne : directory ≠ place := fun heq => hplace (heq ▸ hdirectory)
    rw [at?_remove_of_ne tree hne]
    exact hdirectory

end DirectoriesIn

/-- The root is a directory. -/
theorem ne_nil_of_not_directory (hplace : tree.at? place ≠ some .directory) : place ≠ [] :=
  fun heq => hplace (heq ▸ rfl)

theorem at?_remove_ne_directory (hplace : tree.at? place ≠ some .directory) (removed : Place) :
    (tree.remove removed).at? place ≠ some .directory := by
  by_cases heq : place = removed
  · rw [← heq, at?_remove_self tree (ne_nil_of_not_directory hplace)]
    exact nofun
  · rw [at?_remove_of_ne tree heq]
    exact hplace

theorem at?_put_ne_directory (hplace : tree.at? place ≠ some .directory) (content : ByteArray) :
    (tree.put place (.file content)).at? place ≠ some .directory := by
  rw [at?_put_self tree _ (ne_nil_of_not_directory hplace)]
  exact nofun

/-! ## Replacing -/

theorem exists_of_replace {content : ByteArray} (hfault : (tree.replace path content).2 = none) :
    ∃ made drafted : FileTree, made.write (draftPath path) content = .ok drafted ∧
      drafted.move (draftPath path) path = .ok (tree.replace path content).1 := by
  unfold replace at hfault ⊢
  rcases hmade : tree.createDirectories ((Path.parent? path).getD "") with ⟨made, _ | failure⟩
  · cases hwrite : made.write (draftPath path) content with
    | error failure => simp [hmade, hwrite] at hfault
    | ok drafted =>
        cases hmove : drafted.move (draftPath path) path with
        | error failure => simp [hmade, hwrite, hmove] at hfault
        | ok replaced =>
            refine ⟨made, drafted, hwrite, ?_⟩
            simp [hmade, hwrite, hmove]
  · simp [hmade] at hfault

/-- The draft that is moved is the one that was written: writing it has left its path leading
there. -/
theorem exists_of_move_draft {content : ByteArray} {drafted replaced : FileTree}
    (hwrite : tree.write source content = .ok drafted)
    (hmove : drafted.move source target = .ok replaced) :
    ∃ draft route place, tree.LeadsTo source draft ∧ tree.at? draft ≠ some .directory ∧
      drafted = tree.put draft (.file content) ∧
      Route.ofPath target = .ok route ∧ drafted.locate route = .ok place ∧
      route.endsWithSlash = false ∧ drafted.at? place ≠ some .directory ∧
      replaced = (drafted.remove draft).put place (.file content) := by
  obtain ⟨draftRoute, draft, hdraftRoute, hdraft, hfree, -, hdrafted⟩ :=
    write_eq_ok_iff.mp hwrite
  obtain ⟨sourceRoute, sourcePlace, route, place, moved, hsourceRoute, hsourcePlace, hmoved,
    hroute, hplace, hslash, hnode, hreplaced⟩ := exists_of_move hmove
  have hdraftKept : drafted.LeadsTo source draft := by
    rw [hdrafted]
    exact (DirectoriesIn.put _ hfree).leadsTo ⟨draftRoute, hdraftRoute, hdraft⟩
  obtain rfl : sourcePlace = draft :=
    LeadsTo.unique ⟨sourceRoute, hsourceRoute, hsourcePlace⟩ hdraftKept
  have hcontent : moved = content := by
    rw [hdrafted, at?_put_self tree _ (ne_nil_of_not_directory hfree)] at hmoved
    exact (FileNode.file.inj (Option.some.inj hmoved)).symm
  subst hcontent
  exact ⟨sourcePlace, route, place, ⟨draftRoute, hdraftRoute, hdraft⟩, hfree, hdrafted, hroute,
    hplace, hslash, hnode, hreplaced⟩

/-- Moving a draft that was written keeps the directories. -/
theorem DirectoriesIn.moved {content : ByteArray} {draft : Place}
    (hfree : tree.at? draft ≠ some .directory)
    (hnode : (tree.put draft (.file content)).at? place ≠ some .directory) :
    (tree.put draft (.file content)).DirectoriesIn
      (((tree.put draft (.file content)).remove draft).put place (.file content)) :=
  (DirectoriesIn.remove (at?_put_ne_directory hfree content)).trans
    (DirectoriesIn.put _ (at?_remove_ne_directory hnode draft))

/-- **Main statement.**  When content has been put at the end of a path without a fault, the
path leads to a file with that content. -/
theorem find_replace {content : ByteArray} (hfault : (tree.replace path content).2 = none) :
    (tree.replace path content).1.find path = .ok (.file content) := by
  obtain ⟨made, drafted, hwrite, hmove⟩ := exists_of_replace hfault
  obtain ⟨draft, route, place, -, hfree, hdrafted, hroute, hplace, hslash, hnode, hreplaced⟩ :=
    exists_of_move_draft hwrite hmove
  -- The move does not change where the target is.
  have hkept : drafted.DirectoriesIn (tree.replace path content).1 := by
    rw [hreplaced]
    subst hdrafted
    exact DirectoriesIn.moved hfree hnode
  have hfile : (tree.replace path content).1.at? place = some (.file content) := by
    rw [hreplaced]
    exact at?_put_self _ _ (ne_nil_of_not_directory hnode)
  exact find_eq_file_iff.mpr ⟨route, place, hroute, hkept.locate hplace, hfile, hslash⟩

end FileTree

end ActivityCatalogue
