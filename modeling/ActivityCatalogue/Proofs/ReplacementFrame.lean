import Mathlib
import ActivityCatalogue.Proofs.Replacement

/-!
# What replacing a file leaves alone

Content comes to the end of a path in three stages, each of which may fail after the ones
before have taken effect: the missing directories are made, the draft is written, the draft
is moved.  `Replacing` lists the four ways in which this may end, and what is in the tree
then.

* Directories are made on the way to the target, where nothing was (`AddsDirectories`), and
  no directory is lost.
* The draft is a file beside the target, at a path that is derived from the path of the
  target.  It is written over a file that happens to be there and is moved away with it.
* Nothing else changes, so a file that is neither at the target nor at the draft stays as
  it is, and none appears elsewhere (`replace_frame`).

The draft cannot be left out of this: a file that bears its name is lost when the move
succeeds, and the draft itself remains when the move fails (`replace_outside_target`).
-/

namespace ActivityCatalogue

namespace FileTree

variable {tree other last made after : FileTree} {origin place : Place} {path : String}
  {steps : List Step} {content held : ByteArray}

/-! ## Places on the way -/

/-- The place is where the steps lead, or where some of them lead. -/
def IsOnWay (tree : FileTree) (origin : Place) (steps : List Step) (place : Place) : Prop :=
  ∃ part, part <+: steps ∧ tree.follow origin part = .ok place

/-- The place is at the end of the path or on the way there. -/
def PassesThrough (tree : FileTree) (path : String) (place : Place) : Prop :=
  ∃ route, Route.ofPath path = .ok route ∧ tree.IsOnWay (tree.origin route) route.steps place

theorem IsOnWay.mono {further : List Step} (hway : tree.IsOnWay origin steps place)
    (hkept : tree.DirectoriesIn other) (hsteps : steps <+: further) :
    other.IsOnWay origin further place := by
  obtain ⟨part, hpart, hfollow⟩ := hway
  exact ⟨part, hpart.trans hsteps, hkept.follow hfollow⟩

theorem PassesThrough.mono (hpasses : tree.PassesThrough path place)
    (hkept : tree.DirectoriesIn other) : other.PassesThrough path place := by
  obtain ⟨route, hroute, hway⟩ := hpasses
  refine ⟨route, hroute, ?_⟩
  rw [origin_eq hkept.workingDirectory]
  exact hway.mono hkept List.prefix_rfl

/-! ## Making directories -/

/-- The other tree differs in further directories only, at places where nothing was. -/
structure AddsDirectories (tree other : FileTree) (onWay : Place → Prop) : Prop where
  workingDirectory : other.workingDirectory = tree.workingDirectory
  added : ∀ place, other.at? place = tree.at? place ∨
    tree.at? place = none ∧ other.at? place = some .directory ∧ onWay place

namespace AddsDirectories

variable {onWay onFurtherWay : Place → Prop}

theorem refl (tree : FileTree) (onWay : Place → Prop) : tree.AddsDirectories tree onWay where
  workingDirectory := rfl
  added _ := Or.inl rfl

theorem directoriesIn (hadds : tree.AddsDirectories other onWay) : tree.DirectoriesIn other where
  workingDirectory := hadds.workingDirectory
  directory place hdirectory := by
    rcases hadds.added place with hsame | ⟨-, hmade, -⟩
    · rw [hsame, hdirectory]
    · exact hmade

theorem mono (hadds : tree.AddsDirectories other onWay)
    (hway : ∀ place, onWay place → onFurtherWay place) :
    tree.AddsDirectories other onFurtherWay where
  workingDirectory := hadds.workingDirectory
  added place := (hadds.added place).imp_right fun ⟨hfree, hmade, honWay⟩ =>
    ⟨hfree, hmade, hway place honWay⟩

theorem trans (hfirst : tree.AddsDirectories other onWay)
    (hsecond : other.AddsDirectories last onWay) : tree.AddsDirectories last onWay where
  workingDirectory := hsecond.workingDirectory.trans hfirst.workingDirectory
  added place := by
    rcases hfirst.added place with hsame | ⟨hfree, hmade, honWay⟩
    · rw [← hsame]
      exact hsecond.added place
    · exact Or.inr ⟨hfree, hsecond.directoriesIn.directory place hmade, honWay⟩

/-- No file appears, and none is lost. -/
theorem file_iff (hadds : tree.AddsDirectories other onWay) :
    other.at? place = some (.file held) ↔ tree.at? place = some (.file held) := by
  rcases hadds.added place with hsame | ⟨hfree, hmade, -⟩
  · rw [hsame]
  · rw [hfree, hmade]
    exact iff_of_false nofun nofun

end AddsDirectories

theorem addsDirectories_of_makeDirectory (hmade : tree.makeDirectory origin steps = .ok made) :
    tree.AddsDirectories made (made.IsOnWay origin steps) := by
  obtain ⟨place, hplace, hnode, rfl⟩ := makeDirectory_eq_ok_iff.mp hmade
  have hfree : tree.at? place ≠ some .directory := by
    rw [hnode]
    exact nofun
  refine ⟨rfl, fun elsewhere => ?_⟩
  by_cases heq : elsewhere = place
  · subst heq
    have hkept := DirectoriesIn.put .directory hfree
    exact Or.inr ⟨hnode, at?_put_self tree _ (ne_nil_of_not_directory hfree), steps,
      List.prefix_rfl, hkept.follow hplace⟩
  · exact Or.inl (at?_put_of_ne tree _ heq)

theorem addsDirectories_of_ensureDirectory
    (hmade : tree.ensureDirectory origin steps = .ok made) :
    tree.AddsDirectories made (made.IsOnWay origin steps) := by
  unfold ensureDirectory at hmade
  split at hmade
  · next hnew =>
      cases hmade
      exact addsDirectories_of_makeDirectory hnew
  · split at hmade
    · split at hmade
      · cases hmade
        exact .refl _ _
      · cases hmade
    · cases hmade

/-- Whether it succeeds or stops halfway, making directories adds some on the way. -/
theorem addsDirectories_ensureDirectories (tree : FileTree) (origin : Place)
    (backwards : List Step) :
    tree.AddsDirectories (tree.ensureDirectories origin backwards).1
      ((tree.ensureDirectories origin backwards).1.IsOnWay origin backwards.reverse) := by
  induction backwards with
  | nil => exact .refl _ _
  | cons step before ih =>
      have hpart : before.reverse <+: (step :: before).reverse := by
        rw [List.reverse_cons]
        exact List.prefix_append _ _
      rw [ensureDirectories]
      split
      · next hmade => exact addsDirectories_of_ensureDirectory hmade
      · -- the directories before are made first
        split
        · next hbefore =>
            rw [hbefore] at ih
            exact ih.mono fun _ hway => hway.mono ⟨rfl, fun _ => id⟩ hpart
        · next hbefore =>
            rw [hbefore] at ih
            split
            · next hcomplete =>
                have hlast := addsDirectories_of_ensureDirectory hcomplete
                have hfirst := ih.mono fun _ hway => hway.mono hlast.directoriesIn hpart
                exact hfirst.trans hlast
            · exact ih.mono fun _ hway => hway.mono ⟨rfl, fun _ => id⟩ hpart
      · exact .refl _ _

theorem addsDirectories_createDirectories (tree : FileTree) (path : String) :
    tree.AddsDirectories (tree.createDirectories path).1
      ((tree.createDirectories path).1.PassesThrough path) := by
  unfold createDirectories
  split
  · exact .refl _ _
  · split
    · exact .refl _ _
    · next route hroute =>
        have hadds := addsDirectories_ensureDirectories tree (tree.origin route)
          route.steps.reverse
        rw [List.reverse_reverse] at hadds
        refine hadds.mono fun place hway => ⟨route, hroute, ?_⟩
        rwa [origin_eq hadds.workingDirectory]

/-! ## How replacing ends -/

/-- The path of the directory that holds the target, empty for the working directory. -/
def directoryPath (path : String) : String := (Path.parent? path).getD ""

/-- The tree in which putting content at the end of a path ends, and the fault that is told:
the directories cannot be made, the draft cannot be written or moved, or all is well. -/
inductive Replacing (tree : FileTree) (path : String) (content : ByteArray) :
    FileTree → Option Fault → Prop
  | notMade {made : FileTree} (failure : FileFailure)
      (hmade : tree.AddsDirectories made (made.PassesThrough (directoryPath path))) :
      Replacing tree path content made
        (some (.ofIo "create_dir" (directoryPath path) failure.reason))
  | notDrafted {made : FileTree} (failure : FileFailure)
      (hmade : tree.AddsDirectories made (made.PassesThrough (directoryPath path))) :
      Replacing tree path content made
        (some (.ofIo "write_temp" (draftPath path) failure.reason))
  | notMoved {made : FileTree} {draft : Place} (failure : FileFailure)
      (hmade : tree.AddsDirectories made (made.PassesThrough (directoryPath path)))
      (hdraft : made.LeadsTo (draftPath path) draft) (hfree : made.at? draft ≠ some .directory)
      (hmove : (made.put draft (.file content)).move (draftPath path) path = .error failure) :
      Replacing tree path content (made.put draft (.file content))
        (some (.ofIo "rename_temp" path failure.reason))
  | replaced {made : FileTree} {draft place : Place}
      (hmade : tree.AddsDirectories made (made.PassesThrough (directoryPath path)))
      (hdraft : made.LeadsTo (draftPath path) draft) (hfree : made.at? draft ≠ some .directory)
      (hplace : (made.put draft (.file content)).LeadsTo path place)
      (hnode : (made.put draft (.file content)).at? place ≠ some .directory) :
      Replacing tree path content
        (((made.put draft (.file content)).remove draft).put place (.file content)) none

theorem replacing (tree : FileTree) (path : String) (content : ByteArray) :
    Replacing tree path content (tree.replace path content).1 (tree.replace path content).2 := by
  have hadds := addsDirectories_createDirectories tree (directoryPath path)
  unfold replace
  rw [← directoryPath]
  rcases hmade : tree.createDirectories (directoryPath path) with ⟨made, _ | failure⟩
  · rw [hmade] at hadds
    cases hwrite : made.write (draftPath path) content with
    | error failure =>
        simp only [hmade, hwrite]
        exact .notDrafted failure hadds
    | ok drafted =>
        cases hmove : drafted.move (draftPath path) path with
        | error failure =>
            simp only [hmade, hwrite, hmove]
            obtain ⟨route, draft, hroute, hdraft, hfree, -, rfl⟩ := write_eq_ok_iff.mp hwrite
            exact .notMoved failure hadds ⟨route, hroute, hdraft⟩ hfree hmove
        | ok replaced =>
            simp only [hmade, hwrite, hmove]
            obtain ⟨draft, route, place, hdraft, hfree, rfl, hroute, hplace, -, hnode, rfl⟩ :=
              exists_of_move_draft hwrite hmove
            exact .replaced hadds hdraft hfree ⟨route, hroute, hplace⟩ hnode
  · rw [hmade] at hadds
    simp only [hmade]
    exact .notMade failure hadds

/-! ## What stays -/

/-- Both trees hold the same file at the place, or none of them holds a file there. -/
def SameFile (tree other : FileTree) (place : Place) : Prop :=
  ∀ held, other.at? place = some (.file held) ↔ tree.at? place = some (.file held)

theorem AddsDirectories.sameFile {onWay : Place → Prop} (hadds : tree.AddsDirectories other onWay)
    (place : Place) : tree.SameFile other place := fun _ => hadds.file_iff

theorem SameFile.trans (hfirst : tree.SameFile other place) (hsecond : other.SameFile last place) :
    tree.SameFile last place := fun held => (hsecond held).trans (hfirst held)

theorem SameFile.of_eq (hsame : other.at? place = tree.at? place) : tree.SameFile other place :=
  fun _ => by rw [hsame]

theorem directory_of_put {elsewhere : Place}
    (hdirectory : (tree.put elsewhere (.file content)).at? place = some .directory) :
    tree.at? place = some .directory := by
  by_cases heq : place = elsewhere
  · subst heq
    exact Decidable.byContradiction fun hfree => at?_put_ne_directory hfree content hdirectory
  · rwa [at?_put_of_ne tree _ heq] at hdirectory

theorem directory_of_remove {elsewhere : Place}
    (hdirectory : (tree.remove elsewhere).at? place = some .directory) :
    tree.at? place = some .directory := by
  exact Decidable.byContradiction fun hfree =>
    at?_remove_ne_directory hfree elsewhere hdirectory

namespace Replacing

variable {fault? : Option Fault}

theorem directoriesIn (hreplacing : Replacing tree path content after fault?) :
    tree.DirectoriesIn after := by
  cases hreplacing with
  | notMade failure hmade => exact hmade.directoriesIn
  | notDrafted failure hmade => exact hmade.directoriesIn
  | notMoved failure hmade hdraft hfree hmove =>
      exact hmade.directoriesIn.trans (.put _ hfree)
  | replaced hmade hdraft hfree hplace hnode =>
      exact (hmade.directoriesIn.trans (.put _ hfree)).trans (.moved hfree hnode)

/-- Of the files only those at the target and at the draft may change, and the one at the
target only if there is no fault. -/
theorem sameFile (hreplacing : Replacing tree path content after fault?)
    (htarget : fault? = none → ¬ after.LeadsTo path place)
    (hdraft : ¬ after.LeadsTo (draftPath path) place) : tree.SameFile after place := by
  cases hreplacing with
  | notMade failure hmade => exact hmade.sameFile place
  | notDrafted failure hmade => exact hmade.sameFile place
  | @notMoved made draft failure hmade hleads hfree hmove =>
      have hne : place ≠ draft := fun heq =>
        hdraft (heq ▸ (DirectoriesIn.put _ hfree).leadsTo hleads)
      exact (hmade.sameFile place).trans (.of_eq (at?_put_of_ne _ _ hne))
  | @replaced made draft target hmade hleads hfree hplace hnode =>
      have hmoved := DirectoriesIn.moved hfree hnode
      have hneDraft : place ≠ draft := fun heq =>
        hdraft (heq ▸ hmoved.leadsTo ((DirectoriesIn.put _ hfree).leadsTo hleads))
      have hneTarget : place ≠ target := fun heq => htarget rfl (heq ▸ hmoved.leadsTo hplace)
      refine (hmade.sameFile place).trans (.of_eq ?_)
      rw [at?_put_of_ne _ _ hneTarget, at?_remove_of_ne _ hneDraft, at?_put_of_ne _ _ hneDraft]

/-- Directories are made on the way to the target only, where nothing was. -/
theorem directory_cases (hreplacing : Replacing tree path content after fault?)
    (hdirectory : after.at? place = some .directory) :
    tree.at? place = some .directory ∨
      tree.at? place = none ∧ after.PassesThrough (directoryPath path) place := by
  -- writing and moving a file makes no directory, so it is one of those that were made
  obtain ⟨made, hmade, hkept, hmadeNode⟩ : ∃ made,
      tree.AddsDirectories made (made.PassesThrough (directoryPath path)) ∧
        made.DirectoriesIn after ∧ made.at? place = some .directory := by
    cases hreplacing with
    | notMade failure hmade => exact ⟨_, hmade, .refl _, hdirectory⟩
    | notDrafted failure hmade => exact ⟨_, hmade, .refl _, hdirectory⟩
    | notMoved failure hmade hleads hfree hmove =>
        exact ⟨_, hmade, .put _ hfree, directory_of_put hdirectory⟩
    | replaced hmade hleads hfree hplace hnode =>
        refine ⟨_, hmade, ?_, directory_of_put (directory_of_remove (directory_of_put hdirectory))⟩
        exact (DirectoriesIn.put _ hfree).trans (.moved hfree hnode)
  rcases hmade.added place with hsame | ⟨hfree, -, hway⟩
  · exact Or.inl (hsame ▸ hmadeNode)
  · exact Or.inr ⟨hfree, hway.mono hkept⟩

/-- Without a fault, nothing is left at the draft. -/
theorem draft_eq_none (hreplacing : Replacing tree path content after none)
    (hdraft : after.LeadsTo (draftPath path) place) (htarget : ¬ after.LeadsTo path place) :
    after.at? place = none := by
  cases hreplacing with
  | @replaced made draft target hmade hleads hfree hplace hnode =>
      have hmoved := DirectoriesIn.moved hfree hnode
      obtain rfl : place = draft :=
        hdraft.unique (hmoved.leadsTo ((DirectoriesIn.put _ hfree).leadsTo hleads))
      have hne : place ≠ target := fun heq => htarget (heq ▸ hmoved.leadsTo hplace)
      rw [at?_put_of_ne _ _ hne, at?_remove_self _ (ne_nil_of_not_directory hfree)]

/-- Before the draft is written, files are as they were. -/
theorem sameFile_of_not_moving {fault : Fault}
    (hreplacing : Replacing tree path content after (some fault))
    (hoperation : fault.operation ≠ some "rename_temp") : tree.SameFile after place := by
  cases hreplacing with
  | notMade failure hmade => exact hmade.sameFile place
  | notDrafted failure hmade => exact hmade.sameFile place
  | notMoved => exact absurd rfl hoperation

end Replacing

/-- **Main statement.**  Whether content comes to the end of a path or a fault is told, a file
that is neither at the target nor at the draft stays as it is, and none appears elsewhere.  No
directory is lost, and those that are new are on the way to the target, where nothing was.

If all is well, nothing is left at the draft.  After a fault the target is as it was too,
unless it is its own draft, and if the fault is not that of the move, so are all files. -/
theorem replace_frame (tree : FileTree) (path : String) (content : ByteArray) :
    (∀ place, ¬ (tree.replace path content).1.LeadsTo path place →
      ¬ (tree.replace path content).1.LeadsTo (draftPath path) place →
        tree.SameFile (tree.replace path content).1 place) ∧
    (∀ place, tree.at? place = some .directory →
      (tree.replace path content).1.at? place = some .directory) ∧
    (∀ place, (tree.replace path content).1.at? place = some .directory →
      tree.at? place = some .directory ∨ tree.at? place = none ∧
        (tree.replace path content).1.PassesThrough (directoryPath path) place) ∧
    ((tree.replace path content).2 = none → ∀ place,
      (tree.replace path content).1.LeadsTo (draftPath path) place →
        ¬ (tree.replace path content).1.LeadsTo path place →
          (tree.replace path content).1.at? place = none) ∧
    ∀ fault, (tree.replace path content).2 = some fault →
      (∀ place, ¬ (tree.replace path content).1.LeadsTo (draftPath path) place →
        tree.SameFile (tree.replace path content).1 place) ∧
      (fault.operation ≠ some "rename_temp" → ∀ place,
        tree.SameFile (tree.replace path content).1 place) := by
  have hreplacing := replacing tree path content
  refine ⟨fun place htarget hdraft => hreplacing.sameFile (fun _ => htarget) hdraft,
    hreplacing.directoriesIn.directory, fun place => hreplacing.directory_cases, ?_, ?_⟩
  · intro hnone place hdraft htarget
    rw [hnone] at hreplacing
    exact hreplacing.draft_eq_none hdraft htarget
  · intro fault hfault
    rw [hfault] at hreplacing
    exact ⟨fun place hdraft => hreplacing.sameFile nofun hdraft,
      fun hoperation place => hreplacing.sameFile_of_not_moving hoperation⟩

/-- A file, another one that bears the name of its draft, and a directory. -/
def crowded : FileTree where
  entries := [
    ([⟨"a.json", by cbv⟩], .file "old".toUTF8),
    ([⟨"a.tmp", by cbv⟩], .file "note".toUTF8),
    ([⟨"b.json", by cbv⟩], .directory)]

/-- When the file is replaced, the other file is lost.  When the directory should be, a file
appears beside it. -/
theorem replace_outside_target :
    (∃ place, crowded.at? place = some (.file "note".toUTF8) ∧
      (crowded.replace "a.json" "new".toUTF8).2 = none ∧
      ¬ (crowded.replace "a.json" "new".toUTF8).1.LeadsTo "a.json" place ∧
      (crowded.replace "a.json" "new".toUTF8).1.at? place = none) ∧
    ∃ place, crowded.at? place = none ∧
      (crowded.replace "b.json" "new".toUTF8).2.isSome = true ∧
      ¬ (crowded.replace "b.json" "new".toUTF8).1.LeadsTo "b.json" place ∧
      (crowded.replace "b.json" "new".toUTF8).1.at? place = some (.file "new".toUTF8) := by
  have hfirst : (crowded.replace "a.json" "new".toUTF8).1.LeadsTo "a.json"
      [⟨"a.json", by cbv⟩] := ⟨⟨false, [.down ⟨"a.json", by cbv⟩], false⟩, by cbv, by cbv⟩
  have hsecond : (crowded.replace "b.json" "new".toUTF8).1.LeadsTo "b.json"
      [⟨"b.json", by cbv⟩] := ⟨⟨false, [.down ⟨"b.json", by cbv⟩], false⟩, by cbv, by cbv⟩
  refine ⟨⟨[⟨"a.tmp", by cbv⟩], by cbv, by cbv, ?_, by cbv⟩,
    ⟨[⟨"b.tmp", by cbv⟩], by cbv, by cbv, ?_, by cbv⟩⟩
  · intro hleads
    simpa using hfirst.unique hleads
  · intro hleads
    simpa using hsecond.unique hleads

end FileTree

end ActivityCatalogue
