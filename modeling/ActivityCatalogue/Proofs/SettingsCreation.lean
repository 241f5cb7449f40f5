import ActivityCatalogue.Proofs.AllOrNothing
import ActivityCatalogue.Proofs.ReplacementAgain
import ActivityCatalogue.Proofs.SettingsDocument
import ActivityCatalogue.Proofs.SnapshotStorage
import ActivityCatalogue.SettingsFile

/-!
# Settings that are created where they are missing

Settings are created at most once.  Whatever a call finds at the path it leaves alone, a file
that it has created loads back as the built-in settings, and where a call has failed to create
one the next call fails in the same way.  So a second call leaves the whole tree as the first
one left it (`loadOrCreate_twice`).

It also returns the same settings, with one exception.  Before a creation fails it may have made
some directories, and through them the path may lead to a file that was in the tree all along
(`Uncovers`).  The second call then loads that file (`loadOrCreate_uncovers`).  That takes a
path with two dots: without them a path leads through the directories that hold its end, and
these are there if something is at the end (`Coherent.leadsTo_of_noDots`).
-/

namespace ActivityCatalogue

namespace FileTree

variable {tree other after : FileTree} {origin place : Place} {path : String}
  {steps : List Step} {step : Step} {content held : ByteArray}

/-! ## Paths without two dots -/

theorem isPrefix_of_next {next : Place} (hup : step ≠ .up) (hnext : step.next place = .ok next) :
    place <+: next := by
  cases step with
  | stay => exact (Except.ok.inj hnext) ▸ List.prefix_rfl
  | up => exact absurd rfl hup
  | down name =>
      rw [Step.next] at hnext
      split at hnext
      · exact (Except.ok.inj hnext) ▸ List.prefix_append _ _
      · cases hnext

/-- Steps that never go up lead to what is below their origin. -/
theorem isPrefix_of_follow (hup : .up ∉ steps) (hfollow : tree.follow origin steps = .ok place) :
    origin <+: place := by
  induction steps generalizing origin with
  | nil => exact (Except.ok.inj hfollow) ▸ List.prefix_rfl
  | cons step further ih =>
      obtain ⟨hstep, hfurther⟩ := not_or.mp (mt List.mem_cons.mpr hup)
      obtain ⟨-, next, hnext, hrest⟩ := follow_cons_eq_ok_iff.mp hfollow
      exact (isPrefix_of_next (Ne.symm hstep) hnext).trans (ih hfurther hrest)

/-- In a coherent tree, steps that never go up lead to a file if they do so in another tree. -/
theorem Coherent.follow_of_not_up (hcoherent : tree.Coherent) (hup : .up ∉ steps)
    (hfollow : other.follow origin steps = .ok place)
    (hother : other.at? place = some (.file content))
    (hnode : tree.at? place = some (.file content)) :
    tree.follow origin steps = .ok place := by
  induction steps generalizing origin with
  | nil => exact hfollow
  | cons step further ih =>
      have hbelow := isPrefix_of_follow hup hfollow
      obtain ⟨hstep, hfurther⟩ := not_or.mp (mt List.mem_cons.mpr hup)
      obtain ⟨hentered, next, hnext, hrest⟩ := follow_cons_eq_ok_iff.mp hfollow
      refine follow_cons_eq_ok_iff.mpr ⟨?_, next, hnext, ih hfurther hrest⟩
      obtain ⟨below, rfl⟩ := hbelow
      cases below with
      | nil =>
          -- a file cannot be left by a step
          rw [List.append_nil, hentered] at hother
          cases hother
      | cons name below => exact hcoherent.directory_above hnode

theorem not_mem_steps (hdots : ".." ∉ Text.pieces '/' path) : .up ∉ Path.steps path := by
  intro hmem
  obtain ⟨component, hcomponent, hup⟩ := List.mem_filterMap.mp hmem
  have hne : component ≠ ".." := fun heq => hdots (heq ▸ hcomponent)
  unfold Step.ofComponent? at hup
  split_ifs at hup with hname hdotdot
  · cases hup
  · exact hne (by simpa using hdotdot)
  · cases hup

/-- In a coherent tree, a path without two dots leads to a file if it does so in another
tree. -/
theorem Coherent.leadsTo_of_noDots (hcoherent : tree.Coherent)
    (hdots : ".." ∉ Text.pieces '/' path)
    (hworking : other.workingDirectory = tree.workingDirectory)
    (hleads : other.LeadsTo path place) (hother : other.at? place = some (.file content))
    (hnode : tree.at? place = some (.file content)) : tree.LeadsTo path place := by
  obtain ⟨route, hroute, hplace⟩ := hleads
  have hup : .up ∉ route.steps := by
    rw [Route.eq_of_ofPath hroute]
    exact not_mem_steps hdots
  rw [locate, origin_eq hworking] at hplace
  exact ⟨route, hroute, hcoherent.follow_of_not_up hup hplace hother hnode⟩

/-! ## What is found after a fault -/

/-- After a fault, a file is one that was there before, or the draft. -/
theorem Replacing.file_cases {fault : Fault}
    (hreplacing : Replacing tree path content after (some fault))
    (hnode : after.at? place = some (.file held)) :
    tree.at? place = some (.file held) ∨ held = content := by
  cases hreplacing with
  | notMade failure hmade => exact Or.inl (hmade.file_iff.mp hnode)
  | notDrafted failure hmade => exact Or.inl (hmade.file_iff.mp hnode)
  | @notMoved made draft failure hmade hdraft hfree hmove =>
      by_cases heq : place = draft
      · rw [heq, at?_put_self _ _ (ne_nil_of_not_directory hfree)] at hnode
        exact Or.inr (FileNode.file.inj (Option.some.inj hnode)).symm
      · rw [at?_put_of_ne _ _ heq] at hnode
        exact Or.inl (hmade.file_iff.mp hnode)

/-- Nothing was found at the path, but now it leads to a file that was in the tree all along. -/
structure Uncovers (tree after : FileTree) (path : String) : Prop where
  notFound : tree.pathExists path = false
  uncovered : ∃ place content, ¬ tree.LeadsTo path place ∧
    tree.at? place = some (.file content) ∧
    after.LeadsTo path place ∧ after.at? place = some (.file content)

theorem Coherent.not_uncovers (hcoherent : tree.Coherent) (hdots : ".." ∉ Text.pieces '/' path)
    (hworking : after.workingDirectory = tree.workingDirectory) :
    ¬ tree.Uncovers after path := by
  intro huncovers
  obtain ⟨place, content, hnot, hnode, hleads, hafter⟩ := huncovers.uncovered
  exact hnot (hcoherent.leadsTo_of_noDots hdots hworking hleads hafter hnode)

/-- What is found after a fault where nothing was found before is what should be put there, or
it has been uncovered. -/
theorem uncovers_of_find {fault : Fault} (hnot : tree.pathExists path = false)
    (hfault : (tree.replace path content).2 = some fault)
    (hfind : (tree.replace path content).1.find path = .ok (.file held)) :
    held = content ∨ tree.Uncovers (tree.replace path content).1 path := by
  have hreplacing := replacing tree path content
  rw [hfault] at hreplacing
  obtain ⟨route, place, hroute, hplace, hafter, hslash⟩ := find_eq_file_iff.mp hfind
  refine (hreplacing.file_cases hafter).symm.imp_right fun hnode => ⟨hnot, place, held, ?_, hnode,
    ⟨route, hroute, hplace⟩, hafter⟩
  rintro ⟨same, hsame, hleads⟩
  obtain rfl : route = same := Except.ok.inj (hroute.symm.trans hsame)
  have hfound := find_eq_file_iff.mpr ⟨route, place, hroute, hleads, hnode, hslash⟩
  rw [pathExists_of_find hfound] at hnot
  cases hnot

end FileTree

/-! ## The settings file -/

namespace Settings

open FileTree

variable {tree : FileTree} {path : String} {settings : Settings}

theorem load_saved (hfault : (save tree path settings).2 = none) :
    load (save tree path settings).1 path = parse path settings.toDocument := by
  simp only [load, save, readText_replace hfault]

/-- Built-in settings that were saved are loaded again. -/
theorem load_save_builtin (hfault : (save tree path {}).2 = none) :
    load (save tree path {}).1 path = .ok {} :=
  (load_saved hfault).trans (parse_of_ofDocument? path ofDocument?_toDocument)

theorem save_again {fault : Fault} (hfault : (save tree path settings).2 = some fault) :
    (save (save tree path settings).1 path settings).1 = (save tree path settings).1 :=
  replace_again hfault

theorem workingDirectory_save (tree : FileTree) (path : String) (settings : Settings) :
    (save tree path settings).1.workingDirectory = tree.workingDirectory := by
  have hkept := (replacing tree path settings.toDocument.toUTF8).directoriesIn
  rw [save, hkept.workingDirectory]

theorem pathExists_save (hfault : (save tree path settings).2 = none) :
    (save tree path settings).1.pathExists path = true :=
  pathExists_of_find (find_replace hfault)

/-- Settings are loaded from a file, and from its bytes alone. -/
theorem exists_of_load (hload : load tree path = .ok settings) :
    ∃ content text, tree.find path = .ok (.file content) ∧
      String.fromUTF8? content = some text ∧ parse path text = .ok settings := by
  unfold load at hload
  split at hload
  · cases hload
  · next text hread =>
    obtain ⟨content, hfind, htext⟩ := readText_eq_ok_iff.mp hread
    exact ⟨content, text, hfind, htext, hload⟩

/-! ## One call -/

theorem loadOrCreate_of_load (hload : load tree path = .ok settings) :
    (loadOrCreate tree path).value = (settings, tree) := by
  obtain ⟨content, text, hfind, -⟩ := exists_of_load hload
  simp only [loadOrCreate, pathExists_of_find hfind, if_true, hload]

theorem loadOrCreate_of_pathExists (hexists : tree.pathExists path = true) :
    (loadOrCreate tree path).value.2 = tree := by
  cases hload : load tree path with
  | ok settings => rw [loadOrCreate_of_load hload]
  | error fault => simp only [loadOrCreate, hexists, if_true, hload]

theorem loadOrCreate_of_fault {fault : Fault} (hload : load tree path = .error fault) :
    (loadOrCreate tree path).value.1 = {} := by
  cases hexists : tree.pathExists path with
  | true => simp only [loadOrCreate, hexists, if_true, hload]
  | false => simp only [loadOrCreate, hexists, Bool.false_eq_true, if_false]

theorem loadOrCreate_of_not_pathExists (hnot : tree.pathExists path = false) :
    (loadOrCreate tree path).value = ({}, (save tree path {}).1) := by
  simp only [loadOrCreate, hnot, Bool.false_eq_true, if_false]

/-! ## Two calls -/

/-- A call after a failed creation returns what is loaded from an uncovered file, or else the
built-in settings again. -/
theorem loadOrCreate_after_fault {fault : Fault} (hnot : tree.pathExists path = false)
    (hfault : (save tree path {}).2 = some fault) :
    (loadOrCreate (save tree path {}).1 path).value.1 = {} ∨
      tree.Uncovers (save tree path {}).1 path ∧
        load (save tree path {}).1 path =
          .ok (loadOrCreate (save tree path {}).1 path).value.1 := by
  cases hload : load (save tree path {}).1 path with
  | error fault => exact Or.inl (loadOrCreate_of_fault hload)
  | ok settings =>
      rw [loadOrCreate_of_load hload]
      obtain ⟨held, text, hfind, htext, hparse⟩ := exists_of_load hload
      refine (uncovers_of_find hnot hfault hfind).imp (fun hdraft => ?_) fun huncovers =>
        ⟨huncovers, rfl⟩
      -- the draft holds the document of the built-in settings
      rw [hdraft, Text.fromUTF8?_toUTF8, Option.some_inj] at htext
      rw [← htext, parse_of_ofDocument? path ofDocument?_toDocument] at hparse
      exact (Except.ok.inj hparse).symm

/-- A second call leaves the tree as the first one left it. -/
theorem loadOrCreate_tree_again (tree : FileTree) (path : String) :
    (loadOrCreate (loadOrCreate tree path).value.2 path).value.2 =
      (loadOrCreate tree path).value.2 := by
  cases hfirst : tree.pathExists path with
  | true => rw [loadOrCreate_of_pathExists hfirst, loadOrCreate_of_pathExists hfirst]
  | false =>
      simp only [loadOrCreate_of_not_pathExists hfirst]
      cases hsecond : (save tree path {}).1.pathExists path with
      | true => exact loadOrCreate_of_pathExists hsecond
      | false =>
          rw [loadOrCreate_of_not_pathExists hsecond]
          cases hfault : (save tree path {}).2 with
          | none =>
              rw [pathExists_save hfault] at hsecond
              cases hsecond
          | some fault => rw [save_again hfault]

/-- A second call returns what the first one returned, unless a failed creation has uncovered a
file. -/
theorem loadOrCreate_settings_again (tree : FileTree) (path : String) :
    (loadOrCreate (loadOrCreate tree path).value.2 path).value.1 =
        (loadOrCreate tree path).value.1 ∨
      (∃ fault, (save tree path {}).2 = some fault) ∧
        tree.Uncovers (loadOrCreate tree path).value.2 path ∧
        load (loadOrCreate tree path).value.2 path =
          .ok (loadOrCreate (loadOrCreate tree path).value.2 path).value.1 := by
  cases hfirst : tree.pathExists path with
  | true => exact Or.inl (by rw [loadOrCreate_of_pathExists hfirst])
  | false =>
      simp only [loadOrCreate_of_not_pathExists hfirst]
      cases hfault : (save tree path {}).2 with
      | none => exact Or.inl (by rw [loadOrCreate_of_load (load_save_builtin hfault)])
      | some fault =>
          exact (loadOrCreate_after_fault hfirst hfault).imp_right fun hexception =>
            ⟨⟨fault, rfl⟩, hexception⟩

theorem workingDirectory_loadOrCreate (tree : FileTree) (path : String) :
    (loadOrCreate tree path).value.2.workingDirectory = tree.workingDirectory := by
  cases hexists : tree.pathExists path with
  | true => rw [loadOrCreate_of_pathExists hexists]
  | false =>
      rw [loadOrCreate_of_not_pathExists hexists, workingDirectory_save]

/-- **Main statement.**  A call returns the settings that are loaded if something is found at
the path and loads, and otherwise the built-in ones.  If something is found, nothing in the tree
changes.  If not, and the file is created, it loads as the built-in settings.

Whether a file was created or not, a second call leaves the tree as the first one left it.  It
also returns the same settings, unless the creation has failed and has uncovered a file, which
the second call then loads.  In a coherent tree this cannot happen to a path without two
dots. -/
theorem loadOrCreate_twice (tree : FileTree) (path : String) :
    let first := (loadOrCreate tree path).value
    let second := (loadOrCreate first.2 path).value
    (∀ settings, tree.pathExists path = true → load tree path = .ok settings →
      first.1 = settings) ∧
    (tree.pathExists path = false ∨ (∃ fault, load tree path = .error fault) → first.1 = {}) ∧
    (tree.pathExists path = true → first.2 = tree) ∧
    (tree.pathExists path = false → first.2 = (save tree path {}).1 ∧
      ((save tree path {}).2 = none → load first.2 path = .ok {})) ∧
    second.2 = first.2 ∧
    (second.1 = first.1 ∨ (∃ fault, (save tree path {}).2 = some fault) ∧
      tree.Uncovers first.2 path ∧ load first.2 path = .ok second.1) ∧
    (tree.Coherent → ".." ∉ Text.pieces '/' path → second.1 = first.1) := by
  intro first second
  have hsettings := loadOrCreate_settings_again tree path
  refine ⟨fun settings _ hload => ?_, ?_, loadOrCreate_of_pathExists, fun hnot => ⟨?_, ?_⟩,
    loadOrCreate_tree_again tree path, hsettings, fun hcoherent hdots => ?_⟩
  · simp only [first, loadOrCreate_of_load hload]
  · rintro (hnot | ⟨fault, hload⟩)
    · simp only [first, loadOrCreate_of_not_pathExists hnot]
    · exact loadOrCreate_of_fault hload
  · simp only [first, loadOrCreate_of_not_pathExists hnot]
  · simp only [first, loadOrCreate_of_not_pathExists hnot]
    exact load_save_builtin
  · refine hsettings.resolve_right fun ⟨_, huncovers, _⟩ => ?_
    exact hcoherent.not_uncovers hdots (workingDirectory_loadOrCreate tree path) huncovers

/-! ## A file that comes to light -/

/-- A settings document with one class. -/
def oneClass : String := "ClassRecord:\n  ActivityClasses:\n    - Acme.Root\n"

/-- A settings file, and a directory where its draft would be. -/
def hidden : FileTree where
  entries := [
    ([⟨"b.yml", by cbv⟩], .file oneClass.toUTF8),
    ([⟨"b.tmp", by cbv⟩], .directory)]

/-- The first call makes the missing directory on the way, but cannot write the draft, and the
second call finds the file. -/
theorem loadOrCreate_uncovers :
    hidden.Coherent ∧
      (loadOrCreate hidden "a/../b.yml").value.1 = {} ∧
      (loadOrCreate (loadOrCreate hidden "a/../b.yml").value.2 "a/../b.yml").value.1 =
        { activityClasses := ["Acme.Root"] } ∧
      (loadOrCreate (loadOrCreate hidden "a/../b.yml").value.2 "a/../b.yml").value.1 ≠
        (loadOrCreate hidden "a/../b.yml").value.1 := by
  have hcoherent : hidden.Coherent := by
    refine coherent_of_entries fun entry hentry => ?_
    simp only [hidden, List.mem_cons, List.not_mem_nil, or_false] at hentry
    rcases hentry with rfl | rfl
    · rfl
    · rfl
  have hnot : hidden.pathExists "a/../b.yml" = false := by cbv
  have hparent : Path.parent? "a/../b.yml" = some "a/.." := by cbv
  have hdraft : draftPath "a/../b.yml" = "a/../b.tmp" := by cbv
  obtain ⟨made, hmade, hwrite, hfind⟩ : ∃ made : FileTree,
      hidden.createDirectories "a/.." = (made, none) ∧
      (∀ content, made.write "a/../b.tmp" content = .error .isDirectory) ∧
      made.find "a/../b.yml" = .ok (.file oneClass.toUTF8) := by
    refine ⟨hidden.put [⟨"a", by cbv⟩] .directory, by cbv, fun content => ?_, by cbv⟩
    cbv
  have hread : ofDocument? oneClass = some { activityClasses := ["Acme.Root"] } := by
    simp only [ofDocument?, Text.isVoid, Yaml.Document.ofText?, Yaml.tokens?, Yaml.glyphs?,
      oneClass, String.reduceToList]
    decide +kernel
  have hload : load made "a/../b.yml" = .ok { activityClasses := ["Acme.Root"] } := by
    have htext := readText_eq_ok_iff.mpr ⟨_, hfind, Text.fromUTF8?_toUTF8 oneClass⟩
    simp only [load, htext]
    exact parse_of_ofDocument? _ hread
  have hfirst : (loadOrCreate hidden "a/../b.yml").value = ({}, made) := by
    rw [loadOrCreate_of_not_pathExists hnot]
    simp only [save, replace, hparent, Option.getD_some, hmade, hdraft, hwrite]
  have hne : ({ activityClasses := ["Acme.Root"] } : Settings) ≠ {} := by decide
  rw [hfirst, loadOrCreate_of_load hload]
  exact ⟨hcoherent, rfl, rfl, hne⟩

end Settings

end ActivityCatalogue
