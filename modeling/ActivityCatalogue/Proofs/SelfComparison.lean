import ActivityCatalogue.Proofs.ExitCode

/-!
# Comparing a path with itself

A list that is aligned with itself shows every entry beside itself (`align_self`), and that
is all it takes: files are paired with themselves, though many of them may belong to one
package, classes and properties with themselves, whatever they are.  So a comparison of a
catalogue with itself consists of matches (`Comparison.events_self`), and a directory
compared with itself names no file that stands alone (`output_diffPairs_self`).

What is left of the exit code is then whether the files load.
-/

namespace ActivityCatalogue

open Comparison (Sensitivity)

/-! ## Catalogues -/

namespace Comparison

/-- The matches of all properties that a catalogue shows. -/
def matchesOf (catalogue : Catalogue) : List Event :=
  catalogue.accessible.flatMap fun entry => (catalogue.properties entry).map .propertyMatch

theorem propertyOrder_self (property : Property) : propertyOrder property property = .eq :=
  ordinal_eq_eq_iff.mpr rfl

theorem classOrder_self (entry : ClassEntry) : classOrder entry entry = .eq :=
  ordinal_eq_eq_iff.mpr rfl

theorem propertyEvents_self (sensitivity : Sensitivity) (properties : List Property) :
    propertyEvents sensitivity properties properties = properties.map .propertyMatch := by
  have halign : align propertyOrder properties properties =
      properties.map fun property => .both property property :=
    align_self propertyOrder_self properties
  have hmatch : ∀ property : Property, propertyEventsAt sensitivity (.both property property) =
      [.propertyMatch property] := by
    intro property
    simp [propertyEventsAt, Sensitivity.separates]
  rw [propertyEvents, halign, List.flatMap_map, List.map_eq_flatMap]
  simp only [hmatch]

/-- A catalogue compared with itself shows nothing but matches. -/
theorem events_self (sensitivity : Sensitivity) (catalogue : Catalogue) :
    events sensitivity catalogue catalogue = matchesOf catalogue := by
  have halign : align classOrder catalogue.accessible catalogue.accessible =
      catalogue.accessible.map fun entry => .both entry entry :=
    align_self classOrder_self catalogue.accessible
  rw [events_eq_flatMap_align, halign, List.flatMap_map, matchesOf]
  simp only [classEvents, propertyEvents_self]

theorem differences_self (sensitivity : Sensitivity) (catalogue : Catalogue) :
    differences sensitivity catalogue catalogue = 0 := by
  rw [differences_eq, events_self, matchesOf, differenceCount_flatMap_eq_zero_iff]
  intro entry _
  rw [differenceCount, List.countP_map, List.countP_eq_zero]
  exact fun _ _ => Bool.false_ne_true

end Comparison

/-! ## Files and directories -/

theorem PackageFile.pairDirectories_self {tree : FileTree} {directory : String}
    {files : List String} (hfiles : filesIn tree directory = .ok files) :
    pairDirectories tree directory directory = .ok (files.map fun file => .both file file) := by
  have hpair : pair files files = files.map fun file => .both file file :=
    align_self (fun _ => order_eq_eq_iff.mpr rfl) files
  rw [pairDirectories, hfiles, ← hpair]
  rfl

/-- A path at which something exists stands for itself. -/
theorem FileTree.expandSingle_of_pathExists {tree : FileTree} {path : String}
    (hexists : tree.pathExists path = true) : (tree.expandSingle path).value = path := by
  simp [expandSingle, expansion, hexists]

theorem FileTree.pathExists_of_isDirectory {tree : FileTree} {path : String}
    (hdirectory : tree.isDirectory path = true) : tree.pathExists path = true :=
  pathExists_of_find (isDirectory_iff.mp hdirectory)

namespace CommandLine

open Log (comparisonResults)

namespace Workplace

variable {place : Workplace}

/-- What the comparison of a file with itself prints. -/
def printedFor (place : Workplace) (request : DiffRequest) (file : String) : String :=
  (place.sayComparison request [file] [file] (place.merged [file])
    (place.merged [file])).transcript.output

theorem output_diffFiles (place : Workplace) (request : DiffRequest) (file : String) :
    (place.diffFiles request file [file]).transcript.output = place.printedFor request file := by
  simp [diffFiles, printedFor, output_load, value_load]

/-- What is printed for a directory is what is printed for its files, each below its
header. -/
theorem output_diffPairs_self (place : Workplace) (request : DiffRequest) (apart : Bool)
    (files : List String) :
    (place.diffPairs request apart (files.map fun file => .both file file)).transcript.output =
      String.join (files.map fun file =>
        s!"\ndiff {file} {file}\n" ++ place.printedFor request file) := by
  induction files generalizing apart with
  | nil => rfl
  | cons file rest ih =>
      simp [diffPairs, output_diffFiles, ih, String.join_cons, String.append_assoc]

theorem passes_self_iff {sensitivity : Sensitivity} {file : String} :
    place.Passes sensitivity file [file] ↔ place.Loads file := by
  constructor
  · exact fun hpasses => hpasses.loads file List.mem_cons_self
  · intro hloads
    have hsame := (Comparison.differences_eq_zero_iff (place.reachable_merged [file])
      (place.reachable_merged [file])).mp (Comparison.differences_self sensitivity _)
    refine ⟨fun path hpath => ?_, hsame⟩
    obtain rfl : path = file := by simpa using hpath
    exact hloads

/-- **A file** compared with itself gives no difference. -/
theorem diffExpanded_file_self (place : Workplace) (request : DiffRequest)
    (hsame : request.new = request.old) (hextra : request.extra = none)
    (hfile : place.tree.isDirectory request.old = false) :
    (place.Succeeds request ↔ place.Loads request.old) ∧
      comparisonResults (place.diffExpanded request).transcript.log = [0] ∧
      (place.diffExpanded request).transcript.output = place.printedFor request request.old := by
  have hfiles : ¬ (place.tree.isDirectory request.old = true ∧
      place.tree.isDirectory request.new = true) := by simp [hfile]
  obtain ⟨hsucceeds, hresults⟩ := place.diffExpanded_files_spec request hfiles
  rw [hsame, hextra] at hsucceeds hresults
  refine ⟨hsucceeds.trans passes_self_iff, ?_, ?_⟩
  · rw [hresults]
    exact congrArg (fun count => [count]) (Comparison.differences_self _ _)
  · rw [diffExpanded_of_files hfiles, hsame, hextra]
    exact place.output_diffFiles request request.old

/-- **A directory** compared with itself gives no difference in any of its files. -/
theorem diffExpanded_directory_self (place : Workplace) (request : DiffRequest)
    (hsame : request.new = request.old) (hextra : request.extra = none)
    (hdirectory : place.tree.isDirectory request.old = true) :
    ∃ files, PackageFile.filesIn place.tree request.old = .ok files ∧
      PackageFile.pairDirectories place.tree request.old request.old =
        .ok (files.map fun file => .both file file) ∧
      (place.Succeeds request ↔ ∀ file ∈ files, place.Loads file) ∧
      comparisonResults (place.diffExpanded request).transcript.log = files.map (fun _ => 0) ∧
      (place.diffExpanded request).transcript.output = String.join (files.map fun file =>
        s!"\ndiff {file} {file}\n" ++ place.printedFor request file) := by
  have hnew : place.tree.isDirectory request.new = true := hsame ▸ hdirectory
  obtain ⟨files, hfiles, -⟩ := PackageFile.exists_filesIn_of_isDirectory hdirectory
  have hpairs := PackageFile.pairDirectories_self hfiles
  have hcouples : (files.map fun file => Aligned.both file file).filterMap Aligned.couple? =
      files.map fun file => (file, file) := by
    simp [List.filterMap_map, Function.comp_def, Aligned.couple?]
  obtain ⟨pairs, hgiven, hsucceeds, hrest⟩ :=
    place.diffExpanded_directories_spec request ⟨hdirectory, hnew⟩
  rw [hsame] at hgiven
  obtain rfl := Except.ok.inj (hpairs.symm.trans hgiven)
  refine ⟨files, hfiles, hpairs, ?_, ?_, ?_⟩
  · rw [hsucceeds]
    simp only [hextra, true_and, List.mem_map, Aligned.both.injEq]
    constructor
    · exact fun hpass file hfile => passes_self_iff.mp (hpass file file ⟨file, hfile, rfl, rfl⟩)
    · rintro hloads l r ⟨file, hfile, rfl, rfl⟩
      exact passes_self_iff.mpr (hloads file hfile)
  · rw [(hrest hextra).1, hcouples, List.map_map]
    exact List.map_congr_left fun file _ => Comparison.differences_self _ _
  · have hboth : PackageFile.pairDirectories place.tree request.old request.new =
        .ok (files.map fun file => .both file file) := by rw [hsame, hpairs]
    rw [diffExpanded_of_directories hdirectory hnew hboth hextra]
    exact place.output_diffPairs_self request true files

end Workplace

/-- **Main statement.**  A run that compares a path with itself finds no difference in any
comparison, and a comparison of what one file holds with itself consists of the matches of
all that is shown.

* A directory stands for itself.  Each of its files is paired with itself and what is
  printed belongs to these pairs, so no file is named as standing alone.  The run exits
  with zero exactly if all files load.
* Anything else stands for one file, the one that it matches or itself.  The run exits with
  zero exactly if that loads. -/
theorem diff_with_itself (settingsPath : Option String) (debug : Bool) (path : String)
    (sensitivity : Sensitivity) (asJson : Bool) (tree : FileTree) (defaultPath : String) :
    let request : DiffRequest := { old := path, new := path, sensitivity, asJson }
    let outcome := Invocation.run ⟨settingsPath, debug, .diff request⟩ tree defaultPath
    let place := workplaceOf tree (settingsPath.getD defaultPath)
    let given := (place.tree.expandSingle path).value
    let results := comparisonResults outcome.transcript.log
    outcome.differences = 0 ∧
    (∀ differences ∈ results, differences = 0) ∧
    (∀ file, Comparison.events sensitivity (place.merged [file]) (place.merged [file]) =
      Comparison.matchesOf (place.merged [file])) ∧
    (place.tree.isDirectory path = true → given = path) ∧
    (place.tree.isDirectory given = true →
      ∃ files, PackageFile.filesIn place.tree given = .ok files ∧
        PackageFile.pairDirectories place.tree given given =
          .ok (files.map fun file => .both file file) ∧
        (outcome.exitCode = 0 ↔ ∀ file ∈ files, place.Loads file) ∧
        results = files.map (fun _ => 0) ∧
        outcome.transcript.output = String.join (files.map fun file =>
          s!"\ndiff {file} {file}\n" ++ place.printedFor request file)) ∧
    (place.tree.isDirectory given = false →
      (outcome.exitCode = 0 ↔ place.Loads given) ∧
      results = [0] ∧
      outcome.transcript.output = place.printedFor request given) := by
  intro request outcome place given results
  obtain ⟨hvalue, houtput, -, hresults, -⟩ :=
    run_diff_spec settingsPath debug request tree defaultPath
  have hexit : outcome.exitCode = 0 ↔ place.Succeeds (place.expandedRequest request) :=
    exitCode_run_diff_iff settingsPath debug request tree defaultPath
  have hdirectory := place.diffExpanded_directory_self (place.expandedRequest request) rfl rfl
  have hfile := place.diffExpanded_file_self (place.expandedRequest request) rfl rfl
  have hzero : ∀ differences ∈ results, differences = 0 := by
    intro differences hmem
    rw [show results = _ from hresults] at hmem
    cases hgiven : place.tree.isDirectory given with
    | true =>
        obtain ⟨files, -, -, -, hfiles, -⟩ := hdirectory hgiven
        rw [hfiles] at hmem
        obtain ⟨file, -, rfl⟩ := List.mem_map.mp hmem
        rfl
    | false =>
        rw [(hfile hgiven).2.1] at hmem
        exact List.mem_singleton.mp hmem
  refine ⟨?_, hzero, fun file => Comparison.events_self sensitivity _,
    fun hpath => FileTree.expandSingle_of_pathExists (FileTree.pathExists_of_isDirectory hpath),
    fun hgiven => ?_, fun hgiven => ?_⟩
  · calc outcome.differences
        = results.sum := by
          rw [show results = _ from hresults, ← Workplace.value_diffExpanded]
          exact hvalue
      _ = 0 := List.sum_eq_zero_iff.mpr hzero
  · obtain ⟨files, hfiles, hpairs, hsucceeds, hzeros, hprinted⟩ := hdirectory hgiven
    exact ⟨files, hfiles, hpairs, hexit.trans hsucceeds, hresults.trans hzeros,
      houtput.trans hprinted⟩
  · obtain ⟨hsucceeds, hzeros, hprinted⟩ := hfile hgiven
    exact ⟨hexit.trans hsucceeds, hresults.trans hzeros, houtput.trans hprinted⟩

end CommandLine

end ActivityCatalogue
