import ActivityCatalogue.Proofs.DeclarationCodec
import ActivityCatalogue.Proofs.JsonText
import ActivityCatalogue.Proofs.Replacement
import ActivityCatalogue.Snapshot.File

/-!
# A stored snapshot is loaded again

The text of a snapshot spells the snapshot, whatever its names hold, but a snapshot is
stored without a look at its names and is checked when it is loaded.  So what was saved is
loaded again if every module and every class has a name, and otherwise the load reports the
first name that is missing (`load_save`).
-/

namespace ActivityCatalogue

/-! ## Blank names -/

/-- A text is void if nothing is left of it after trimming. -/
theorem Text.isVoid_iff_trim (text : String) : isVoid text = true ↔ trim text = "" := by
  rw [isVoid, trim, ← String.ofList_nil, String.ofList_inj, List.reverse_eq_nil_iff,
    List.dropWhile_eq_nil_iff, List.all_eq_true]
  constructor
  · intro hblank c hc
    have hmem : c ∈ text.toList :=
      (List.dropWhile_sublist isBlank).subset (List.mem_reverse.mp hc)
    exact hblank c hmem
  · intro hrest
    -- What trimming leaves at the start begins with a character that is not blank.
    have hnil : text.toList.dropWhile isBlank = [] := by
      by_contra hne
      have hhead := List.head_dropWhile_not isBlank hne
      have hblank := hrest _ (List.mem_reverse.mpr (List.head_mem hne))
      rw [hhead] at hblank
      exact absurd hblank nofun
    exact List.dropWhile_eq_nil_iff.mp hnil

namespace Snapshot

/-! ## The first name that is missing -/

/-- The name of a module is not blank, and no class of it is nameless; that of a class may be
blank. -/
structure IsNamedModule (module : ModuleDeclaration) : Prop where
  name : Text.trim module.name ≠ ""
  classes : ∀ declaration ∈ module.classes, declaration.fullName ≠ ""

/-- Every module and every class has a name. -/
def IsNamed (snapshot : Snapshot) : Prop := ∀ module ∈ snapshot.modules, IsNamedModule module

/-- The first name that a module lacks; its own name comes before those of its classes, and
these are counted from zero. -/
inductive LacksFirst (module : ModuleDeclaration) : Defect → Prop
  | blankModuleName (hblank : Text.trim module.name = "") : LacksFirst module .blankModuleName
  | namelessClass (position : Nat) (hposition : position < module.classes.length)
      (hname : Text.trim module.name ≠ "") (hnameless : module.classes[position].fullName = "")
      (hbefore : ∀ (earlier : Nat) (hearlier : earlier < position),
        module.classes[earlier].fullName ≠ "") :
      LacksFirst module (.namelessClass position module.name)

/-- The first name that a snapshot lacks: that of the first module that lacks one. -/
def FirstDefect (snapshot : Snapshot) (defect : Defect) : Prop :=
  ∃ before module after, snapshot.modules = before ++ module :: after ∧
    (∀ other ∈ before, IsNamedModule other) ∧ LacksFirst module defect

theorem moduleDefect?_eq_none_iff (module : ModuleDeclaration) :
    moduleDefect? module = none ↔ IsNamedModule module := by
  unfold moduleDefect?
  by_cases hvoid : Text.isVoid module.name = true
  · have hblank := (Text.isVoid_iff_trim _).mp hvoid
    rw [if_pos hvoid]
    exact ⟨nofun, fun hnamed => absurd hblank hnamed.name⟩
  · have hname : Text.trim module.name ≠ "" := fun hblank =>
      hvoid ((Text.isVoid_iff_trim _).mpr hblank)
    rw [if_neg hvoid, Option.map_eq_none_iff, List.findIdx?_eq_none_iff]
    simp only [String.isEmpty_eq_false_iff]
    exact ⟨fun hclasses => ⟨hname, hclasses⟩, fun hnamed => hnamed.classes⟩

theorem moduleDefect?_eq_some_iff (module : ModuleDeclaration) (defect : Defect) :
    moduleDefect? module = some defect ↔ LacksFirst module defect := by
  unfold moduleDefect?
  by_cases hvoid : Text.isVoid module.name = true
  · have hblank := (Text.isVoid_iff_trim _).mp hvoid
    rw [if_pos hvoid]
    constructor
    · rintro ⟨⟩
      exact .blankModuleName hblank
    · rintro (_ | ⟨_, _, hname⟩)
      · rfl
      · exact absurd hblank hname
  · have hname : Text.trim module.name ≠ "" := fun hblank =>
      hvoid ((Text.isVoid_iff_trim _).mpr hblank)
    rw [if_neg hvoid, Option.map_eq_some_iff]
    simp only [List.findIdx?_eq_some_iff_getElem, String.isEmpty_iff]
    constructor
    · rintro ⟨position, ⟨hposition, hnameless, hbefore⟩, rfl⟩
      exact .namelessClass position hposition hname hnameless hbefore
    · rintro (hblank | ⟨position, hposition, _, hnameless, hbefore⟩)
      · exact absurd hblank hname
      · exact ⟨position, ⟨hposition, hnameless, hbefore⟩, rfl⟩

theorem defect?_eq_none_iff (snapshot : Snapshot) : snapshot.defect? = none ↔ snapshot.IsNamed := by
  rw [defect?, List.findSome?_eq_none_iff]
  simp only [moduleDefect?_eq_none_iff]
  rfl

theorem defect?_eq_some_iff (snapshot : Snapshot) (defect : Defect) :
    snapshot.defect? = some defect ↔ snapshot.FirstDefect defect := by
  rw [defect?, List.findSome?_eq_some_iff]
  simp only [moduleDefect?_eq_none_iff, moduleDefect?_eq_some_iff]
  constructor
  · rintro ⟨before, module, after, hmodules, hlacks, hbefore⟩
    exact ⟨before, module, after, hmodules, hbefore, hlacks⟩
  · rintro ⟨before, module, after, hmodules, hbefore, hlacks⟩
    exact ⟨before, module, after, hmodules, hlacks, hbefore⟩

/-! ## Reading a snapshot -/

section

variable {text : String} {snapshot : Snapshot}

theorem ofText_of_malformed (hread : (Json.read text).bind ofJson? = none) :
    ofText text = .error .malformed := by
  simp only [ofText, hread]

theorem ofText_of_named (hread : (Json.read text).bind ofJson? = some snapshot)
    (hdefect : snapshot.defect? = none) : ofText text = .ok snapshot := by
  simp only [ofText, hread, hdefect]

theorem ofText_of_defect {defect : Defect} (hread : (Json.read text).bind ofJson? = some snapshot)
    (hdefect : snapshot.defect? = some defect) : ofText text = .error defect := by
  simp only [ofText, hread, hdefect]

end

theorem read_toText (snapshot : Snapshot) :
    (Json.read snapshot.toText).bind ofJson? = some snapshot := by
  rw [toText, Json.read_pretty, Option.bind_some, ofJson?_toJson]

/-! ## Saving and loading -/

end Snapshot

theorem Text.fromUTF8?_toUTF8 (text : String) : String.fromUTF8? text.toUTF8 = some text :=
  dif_pos text.isValidUTF8

theorem FileTree.readText_replace {tree : FileTree} {path text : String}
    (hfault : (tree.replace path text.toUTF8).2 = none) :
    (tree.replace path text.toUTF8).1.readText path = .ok text :=
  readText_eq_ok_iff.mpr ⟨_, find_replace hfault, Text.fromUTF8?_toUTF8 text⟩

namespace Snapshot

/-- **Main statement.**  What was saved without a fault is loaded again as it was if every
module and every class in it has a name.  Otherwise the load fails at the path and names the
one defect that comes first. -/
theorem load_save (tree : FileTree) (path : String) (snapshot : Snapshot)
    (hsaved : (save tree path snapshot).2 = none) :
    (load (save tree path snapshot).1 path = .ok snapshot ↔ snapshot.IsNamed) ∧
      (¬ snapshot.IsNamed → ∃ defect, (∀ other, snapshot.FirstDefect other ↔ other = defect) ∧
        load (save tree path snapshot).1 path = .error {
          kind := .invalidSnapshot, operation := some "load_snapshot", path := some path,
          message := "Snapshot parse error: " ++ defect.message }) := by
  have hload : load (save tree path snapshot).1 path = parse path snapshot.toText := by
    rw [load, save, FileTree.readText_replace hsaved]
  rw [hload, parse]
  cases hdefect : snapshot.defect? with
  | none =>
      rw [ofText_of_named snapshot.read_toText hdefect]
      have hnamed := (defect?_eq_none_iff snapshot).mp hdefect
      exact ⟨iff_of_true rfl hnamed, fun hnot => absurd hnamed hnot⟩
  | some defect =>
      rw [ofText_of_defect snapshot.read_toText hdefect]
      have hnot : ¬ snapshot.IsNamed := fun hnamed => by
        rw [(defect?_eq_none_iff snapshot).mpr hnamed] at hdefect
        cases hdefect
      refine ⟨iff_of_false nofun hnot, fun _ => ⟨defect, fun other => ?_, rfl⟩⟩
      rw [← defect?_eq_some_iff, hdefect, Option.some_inj, eq_comm]

/-- A snapshot whose second class has no name, with characters that a text escapes. -/
def halfNamed : Snapshot where
  modules := [{
    name := "Acme\t.dll"
    classes := [{ fullName := "\x01Wait\"\n" }, { fullName := "", isPublic := true }] }]

/-- It is saved but not loaded again. -/
theorem load_save_halfNamed :
    (save {} "a.json" halfNamed).2 = none ∧
      load (save {} "a.json" halfNamed).1 "a.json" = .error {
        kind := .invalidSnapshot, operation := some "load_snapshot", path := some "a.json",
        message := "Snapshot parse error: class #1 of module Acme\t.dll has an empty name" } := by
  have hparent : Path.parent? "a.json" = some "" := by cbv
  have hmade : FileTree.createDirectories {} "" = ({}, none) := rfl
  have hdraft : FileTree.draftPath "a.json" = "a.tmp" := by cbv
  have hdraftRoute : Route.ofPath "a.tmp" = .ok {
      fromRoot := false, steps := [.down ⟨"a.tmp", by cbv⟩], endsWithSlash := false } := by cbv
  have hroute : Route.ofPath "a.json" = .ok {
      fromRoot := false, steps := [.down ⟨"a.json", by cbv⟩], endsWithSlash := false } := by cbv
  have hsaved : (save {} "a.json" halfNamed).2 = none := by
    simp only [save, FileTree.replace, hparent, Option.getD_some, hmade, hdraft, FileTree.write,
      FileTree.move, hdraftRoute, hroute]
    rfl
  have hfirst : halfNamed.FirstDefect (.namelessClass 1 "Acme\t.dll") := by
    refine ⟨[], _, [], rfl, List.forall_mem_nil _, .namelessClass 1 (by decide) ?_ rfl ?_⟩
    · decide +kernel
    · intro earlier hearlier
      obtain rfl : earlier = 0 := by omega
      simp
  have hnot : ¬ halfNamed.IsNamed := fun hnamed =>
    (hnamed _ List.mem_cons_self).classes { fullName := "", isPublic := true } (by simp) rfl
  obtain ⟨defect, honly, hload⟩ := (load_save {} "a.json" halfNamed hsaved).2 hnot
  obtain rfl := (honly _).mp hfirst
  exact ⟨hsaved, hload⟩

end Snapshot

end ActivityCatalogue
