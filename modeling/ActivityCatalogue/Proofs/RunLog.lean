import ActivityCatalogue.Proofs.FaultIsolation
import ActivityCatalogue.Proofs.LogNesting

/-!
# The log of a run

A run goes through stages.  A listing fills one catalogue from each of its files; a diff
compares files with others, and each of these comparisons has the operations inside of it
that it takes: filling the catalogues and comparing them (`Workplace.stages`).

* **Loading.**  Each file that is named as a snapshot file is tried once, in order,
  whatever became of the files before it (`brackets_addFiles`, `file?_loading`).
* **Comparing files.**  What is tried and one comparison lie between the start and the end
  of a diff (`brackets_diffFiles_eq`).
* **Runs.**  Settings and patterns start no operation, so the log of a run shows its stages
  and nothing else (`brackets_run`).  Every stage closes what it opens, hence the whole log
  nests (`operations_nest`).
-/

namespace ActivityCatalogue

open Log (brackets Nests IsClosed)

/-! ## Entries that start or end operations -/

/-- The log shows the entry whether debugging or not, and if it tells of a failure, then of
one in filling a catalogue. -/
structure Log.Entry.IsSound (entry : Log.Entry) : Prop where
  isShown : ∀ debugging, entry.level.isShown debugging = true
  filling : entry.phase = some .failure → entry.operation = some Catalogue.populateOperation

namespace Log.Entry

theorem isSound_started (source : Log.Source) (operation : String)
    (details : List (String × Log.Value)) : (Log.started source operation details).IsSound where
  isShown _ := rfl
  filling hfailure := by cases hfailure

theorem isSound_finished (source : Log.Source) (operation : String)
    (details : List (String × Log.Value)) : (Log.finished source operation details).IsSound where
  isShown _ := rfl
  filling hfailure := by cases hfailure

theorem isSound_populationEnd (origin : String) (outcome : Except Fault PopulationReport) :
    (Catalogue.populationEnd origin outcome).IsSound := by
  cases outcome with
  | ok report => exact isSound_finished ..
  | error fault => exact ⟨fun _ => rfl, fun _ => rfl⟩

end Log.Entry

namespace Operation

/-- The file from which an operation fills a catalogue. -/
def file? : Operation → Option String
  | population _ provider => some provider.origin
  | comparison _ _ _ => none

theorem isSound_of_mem_brackets {operation : Operation} {entry : Log.Entry}
    (hentry : entry ∈ operation.brackets) : entry.IsSound := by
  have hcases : entry = operation.start ∨ entry = operation.ending := by
    simpa [brackets] using hentry
  rcases hcases with rfl | rfl
  · cases operation with
    | population catalogue provider => exact Log.Entry.isSound_started ..
    | comparison sensitivity first second => exact Log.Entry.isSound_started ..
  · cases operation with
    | population catalogue provider => exact Log.Entry.isSound_populationEnd ..
    | comparison sensitivity first second => exact Log.Entry.isSound_finished ..

end Operation

namespace Log

/-- What is shown of a log. -/
def shown (debugging : Bool) (log : List Entry) : List Entry :=
  log.filter fun entry => entry.level.isShown debugging

/-- If the brackets of a log are sound, all of them are shown. -/
theorem brackets_shown {log : List Entry} (hsound : ∀ entry ∈ brackets log, entry.IsSound)
    (debugging : Bool) : brackets (shown debugging log) = brackets log := by
  have hshown : shown debugging (brackets log) = brackets log :=
    List.filter_eq_self.mpr fun entry hentry => (hsound entry hentry).isShown debugging
  rw [← hshown, shown, shown, brackets, brackets, List.filter_filter, List.filter_filter]
  simp only [Bool.and_comm]

/-- A log that nests, as a whole and in what is shown of it, and in which nothing fails but
filling a catalogue. -/
structure IsWellBracketed (log : List Entry) : Prop where
  nests : Nests log
  nests_shown : ∀ debugging, Nests (shown debugging log)
  filling : ∀ entry ∈ log, entry.phase = some .failure →
    entry.operation = some Catalogue.populateOperation

theorem IsClosed.isWellBracketed {log : List Entry} (hclosed : IsClosed (brackets log))
    (hsound : ∀ entry ∈ brackets log, entry.IsSound) : IsWellBracketed log where
  nests := nests_brackets_iff.mp hclosed.nests
  nests_shown debugging := by
    rw [← nests_brackets_iff, brackets_shown hsound]
    exact hclosed.nests
  filling entry hentry hfailure := by
    have hboundary : entry.boundary.isSome = true := by
      cases hnone : entry.boundary with
      | none => simp [Entry.phase, hnone] at hfailure
      | some boundary => rfl
    exact (hsound entry (List.mem_filter.mpr ⟨hentry, hboundary⟩)).filling hfailure

end Log

/-! ## What starts no operation -/

theorem FileTree.brackets_expandAll (tree : FileTree) (path : String) :
    brackets (tree.expandAll path).log = [] := by
  unfold expandAll
  rw [Logged.log_bind, Log.brackets_append, brackets_expansion, List.nil_append]
  split
  · rfl
  · rfl

theorem Catalogue.brackets_listingLog (catalogue : Catalogue) :
    brackets catalogue.listingLog = [] := by
  have hentry : ∀ entry, brackets (Listing.activityLog catalogue entry) = [] := by
    intro entry
    unfold Listing.activityLog
    split
    · exact Log.brackets_flatMap_eq_nil (fun property => Simplifier.brackets_warnings _) _
    · rfl
  exact Log.brackets_flatMap_eq_nil (fun package => Log.brackets_flatMap_eq_nil hentry _) _

namespace CommandLine

/-! ## Stages -/

/-- What a run goes through. -/
inductive Stage where
  /-- An operation with nothing around it. -/
  | alone (operation : Operation)
  /-- A comparison of a file with others: the operations inside of it and the number of
  differences that it gives. -/
  | files (old : String) (inside : List Operation) (differences : Nat)

namespace Stage

/-- What the log shows of a stage. -/
def brackets : Stage → List Log.Entry
  | alone operation => operation.brackets
  | files old inside differences =>
    Log.started .diffCommand Workplace.diffOperation [("path", .text old)] ::
      (inside.flatMap Operation.brackets ++
        [Log.finished .diffCommand Workplace.diffOperation
          [("differences", .count differences)]])

theorem isClosed_brackets (stage : Stage) : IsClosed stage.brackets := by
  cases stage with
  | alone operation => exact operation.isClosed_brackets
  | files old inside differences =>
      exact (Operation.isClosed_flatMap_brackets inside).enclose rfl rfl nofun

theorem isSound_of_mem_brackets {stage : Stage} {entry : Log.Entry}
    (hentry : entry ∈ stage.brackets) : entry.IsSound := by
  cases stage with
  | alone operation => exact Operation.isSound_of_mem_brackets hentry
  | files old inside differences =>
      simp only [brackets, List.mem_cons, List.mem_append, List.mem_flatMap, List.not_mem_nil,
        or_false] at hentry
      rcases hentry with rfl | ⟨operation, -, hinside⟩ | rfl
      · exact Log.Entry.isSound_started ..
      · exact Operation.isSound_of_mem_brackets hinside
      · exact Log.Entry.isSound_finished ..

/-- Whatever stages a log shows, it is well bracketed. -/
theorem isWellBracketed_of_brackets {log : List Log.Entry} {stages : List Stage}
    (hlog : Log.brackets log = stages.flatMap brackets) : Log.IsWellBracketed log := by
  refine Log.IsClosed.isWellBracketed ?_ fun entry hentry => ?_
  · rw [hlog]
    exact IsClosed.flatMap fun stage _ => stage.isClosed_brackets
  · rw [hlog] at hentry
    obtain ⟨stage, -, hstage⟩ := List.mem_flatMap.mp hentry
    exact isSound_of_mem_brackets hstage

theorem flatMap_alone (operations : List Operation) :
    (operations.map alone).flatMap brackets = operations.flatMap Operation.brackets :=
  List.flatMap_map ..

end Stage

namespace Workplace

/-! ## Loading -/

/-- What trying one path takes: filling the catalogue, if a snapshot file has such a name. -/
def trying (place : Workplace) (catalogue : Catalogue) (path : String) : List Operation :=
  if PackageFile.isSnapshot path then
    [.population catalogue (Snapshot.provider place.tree path)]
  else []

/-- What trying several paths takes; what the first ones have brought is there for the
later ones. -/
def loading (place : Workplace) (catalogue : Catalogue) : List String → List Operation
  | [] => []
  | path :: rest =>
    place.trying catalogue path ++ place.loading (place.addFile catalogue path).value rest

theorem brackets_addFile_eq (place : Workplace) (catalogue : Catalogue) (path : String) :
    brackets (place.addFile catalogue path).transcript.log =
      (place.trying catalogue path).flatMap Operation.brackets := by
  rw [brackets_addFile, trying]
  split
  · rfl
  · rfl

theorem brackets_addFiles (place : Workplace) (catalogue : Catalogue) (paths : List String) :
    brackets (place.addFiles catalogue paths).transcript.log =
      (place.loading catalogue paths).flatMap Operation.brackets := by
  induction paths generalizing catalogue with
  | nil => rfl
  | cons path rest ih => simp [addFiles, loading, brackets_addFile_eq, ih]

/-- No file is left out because of another one. -/
theorem file?_loading (place : Workplace) (catalogue : Catalogue) (paths : List String) :
    (place.loading catalogue paths).map Operation.file? =
      (paths.filter PackageFile.isSnapshot).map some := by
  induction paths generalizing catalogue with
  | nil => rfl
  | cons path rest ih =>
      rw [loading, List.map_append, ih, trying]
      by_cases hname : PackageFile.isSnapshot path = true
      · rw [if_pos hname, List.filter_cons_of_pos hname]
        rfl
      · rw [if_neg hname, List.filter_cons_of_neg hname]
        rfl

/-- The catalogue with which loading starts. -/
def emptyCatalogue (place : Workplace) : Catalogue := .ofSettings place.settings

/-! ## Comparing files -/

/-- What comparing a file with others takes: filling both catalogues and comparing them. -/
def inside (place : Workplace) (request : DiffRequest) (old : String) (new : List String) :
    List Operation :=
  place.loading place.emptyCatalogue [old] ++ place.loading place.emptyCatalogue new ++
    [.comparison request.sensitivity (place.merged [old]) (place.merged new)]

/-- The stage in which a file is compared with others. -/
def comparing (place : Workplace) (request : DiffRequest) (old : String) (new : List String) :
    Stage :=
  .files old (place.inside request old new) (place.diffFiles request old new).value

theorem file?_inside (place : Workplace) (request : DiffRequest) (old : String)
    (new : List String) :
    (place.inside request old new).map Operation.file? =
      ((old :: new).filter PackageFile.isSnapshot).map some ++ [none] := by
  have hpaths : (old :: new).filter PackageFile.isSnapshot =
      [old].filter PackageFile.isSnapshot ++ new.filter PackageFile.isSnapshot :=
    List.filter_append [old] new
  rw [inside, List.map_append, List.map_append, file?_loading, file?_loading, hpaths,
    List.map_append]
  rfl

/-- The comparison stands last, and gives what the whole stage gives. -/
theorem result_getLast?_inside (place : Workplace) (request : DiffRequest) (old : String)
    (new : List String) :
    (place.inside request old new).getLast?.map Operation.result =
      some (.compared (place.diffFiles request old new).value) := by
  rw [inside, List.getLast?_concat, value_diffFiles]
  rfl

theorem brackets_diffFiles_eq (place : Workplace) (request : DiffRequest) (old : String)
    (new : List String) :
    brackets (place.diffFiles request old new).transcript.log =
      (place.comparing request old new).brackets := by
  have hfirst : brackets (place.load [old]).transcript.log =
      (place.loading place.emptyCatalogue [old]).flatMap Operation.brackets :=
    place.brackets_addFiles _ [old]
  have hsecond : brackets (place.load new).transcript.log =
      (place.loading place.emptyCatalogue new).flatMap Operation.brackets :=
    place.brackets_addFiles _ new
  rw [brackets_diffFiles, hfirst, hsecond, comparing, Stage.brackets, value_diffFiles, value_load,
    value_load, inside, List.flatMap_append, List.flatMap_append]
  simp [Operation.brackets, Operation.start, Operation.ending]

/-! ## Commands -/

/-- The files that a diff of expanded paths compares, each with its others. -/
def compared (place : Workplace) (request : DiffRequest) : List (String × List String) :=
  if place.tree.isDirectory request.old && place.tree.isDirectory request.new then
    if request.extra.isSome then []
    else
      match PackageFile.pairDirectories place.tree request.old request.new with
      | .error _ => []
      | .ok pairs => (pairs.filterMap Aligned.couple?).map fun files => (files.1, [files.2])
  else [(request.old, request.new :: request.extra.toList)]

/-- The stages of a diff of expanded paths. -/
def diffStages (place : Workplace) (request : DiffRequest) : List Stage :=
  (place.compared request).map fun files => place.comparing request files.1 files.2

/-- The stages of a command. -/
def stages (place : Workplace) : Command → List Stage
  | .diff request => place.diffStages (place.expandedRequest request)
  | .print paths =>
    match (place.filesToPrint paths).value with
    | .error _ => []
    | .ok files => (place.loading place.emptyCatalogue files).map .alone

theorem brackets_diffPairs (place : Workplace) (request : DiffRequest) (apart : Bool)
    (pairs : List (Aligned String String)) :
    brackets (place.diffPairs request apart pairs).transcript.log =
      (pairs.filterMap Aligned.couple?).flatMap fun files =>
        (place.comparing request files.1 [files.2]).brackets := by
  obtain ⟨-, -, hlog⟩ := place.diffPairs_spec request apart pairs
  rw [hlog, comparisons, List.flatMap_map, brackets, List.filter_flatMap]
  exact List.flatMap_congr fun files _ => place.brackets_diffFiles_eq request _ _

/-- **A diff** counts what its comparisons give, and shows these in the log. -/
theorem diffExpanded_spec (place : Workplace) (request : DiffRequest) :
    let session := place.diffExpanded request
    session.value = ((place.compared request).map fun files =>
        (place.diffFiles request files.1 files.2).value).sum ∧
      brackets session.transcript.log = (place.diffStages request).flatMap Stage.brackets := by
  unfold diffExpanded diffStages compared diffDirectories
  split
  · split
    · exact ⟨rfl, rfl⟩
    · cases PackageFile.pairDirectories place.tree request.old request.new with
      | error fault => exact ⟨rfl, rfl⟩
      | ok pairs =>
          obtain ⟨hvalue, -, -⟩ := place.diffPairs_spec request true pairs
          exact ⟨by simp [hvalue, comparisons, Function.comp_def],
            by simp [brackets_diffPairs, List.flatMap_map]⟩
  · exact ⟨by simp, by simp [brackets_diffFiles_eq]⟩

theorem brackets_filesToPrint (place : Workplace) (paths : List String) :
    brackets (place.filesToPrint paths).log = [] := by
  induction paths with
  | nil => rfl
  | cons path rest ih =>
      rw [filesToPrint]
      split
      · split
        · rfl
        · simp [ih]
      · simp [ih, FileTree.brackets_expandAll]

theorem brackets_print (place : Workplace) (paths : List String) :
    brackets (place.print paths).transcript.log =
      (place.stages (.print paths)).flatMap Stage.brackets := by
  rw [print, stages, Session.transcript_bind, Transcript.log_append, Log.brackets_append,
    Session.transcript_ofLogged, brackets_filesToPrint, List.nil_append, Session.value_ofLogged]
  cases (place.filesToPrint paths).value with
  | error fault => rfl
  | ok files =>
      have hload : brackets (place.load files).transcript.log =
          (place.loading place.emptyCatalogue files).flatMap Operation.brackets :=
        place.brackets_addFiles _ files
      rw [Stage.flatMap_alone]
      simp [hload, Catalogue.brackets_listingLog]

theorem brackets_carryOut (place : Workplace) (command : Command) :
    brackets (place.carryOut command).transcript.log =
      (place.stages command).flatMap Stage.brackets := by
  cases command with
  | diff request =>
      obtain ⟨-, -, -, hlog⟩ := place.diff_spec request
      exact hlog.trans (place.diffExpanded_spec _).2
  | print paths => simp [carryOut, brackets_print]

end Workplace

/-! ## Whole runs -/

theorem brackets_run (invocation : Invocation) (tree : FileTree) (defaultPath : String) :
    let place := workplaceOf tree (invocation.settingsPath.getD defaultPath)
    brackets (invocation.run tree defaultPath).transcript.log =
      (place.stages invocation.command).flatMap Stage.brackets := by
  intro place
  have hsettings :=
    Settings.brackets_loadOrCreate tree (invocation.settingsPath.getD defaultPath)
  have hrun : (invocation.run tree defaultPath).transcript.log =
      (Settings.loadOrCreate tree (invocation.settingsPath.getD defaultPath)).log ++
        (place.carryOut invocation.command).transcript.log := rfl
  rw [hrun, Log.brackets_append, hsettings, List.nil_append, place.brackets_carryOut]

/-- **Main statement.**  Whatever a run carries out and whatever calls are made, the log is
well bracketed, and it shows these operations and no others.

* A run of a diff shows a stage for each file that it compares.  Such a stage encloses one
  operation for each of its snapshot files, in order, and one comparison after them; it
  ends with the differences that the comparison gives, and the run counts their sum.
* A run of a listing shows one operation for each of its snapshot files.
* Calls show one operation each.  What they give is what these operations give.
* An operation is a start and an end, and the end tells what the operation gives: filling a
  catalogue fails exactly with the fault that it returns, or tells how many classes were
  registered; comparing tells how many differences there are. -/
theorem operations_nest (invocation : Invocation) (tree : FileTree) (defaultPath : String)
    (catalogues : Catalogues) (calls : List Catalogues.Call) :
    let outcome := invocation.run tree defaultPath
    let log := outcome.transcript.log
    let place := workplaceOf tree (invocation.settingsPath.getD defaultPath)
    let stages := place.stages invocation.command
    let called := catalogues.performAll calls
    let operations := catalogues.operations calls
    Log.IsWellBracketed log ∧
    brackets log = stages.flatMap Stage.brackets ∧
    (∀ request, invocation.command = .diff request →
      let given := place.expandedRequest request
      let compared := place.compared given
      stages = compared.map (fun files => place.comparing given files.1 files.2) ∧
      outcome.differences =
        (compared.map fun files => (place.diffFiles given files.1 files.2).value).sum ∧
      ∀ old new, (old, new) ∈ compared →
        (place.inside given old new).map Operation.file? =
          ((old :: new).filter PackageFile.isSnapshot).map some ++ [none] ∧
        (place.inside given old new).getLast?.map Operation.result =
          some (.compared (place.diffFiles given old new).value)) ∧
    (∀ paths, invocation.command = .print paths →
      ∃ files, (place.filesToPrint paths).value = .ok files ∧
        stages = (place.loading place.emptyCatalogue files).map .alone ∧
        (place.loading place.emptyCatalogue files).map Operation.file? =
          (files.filter PackageFile.isSnapshot).map some) ∧
    Log.IsWellBracketed called.log ∧
    brackets called.log = operations.flatMap Operation.brackets ∧
    called.value.2 = operations.map Operation.result ∧
    ∀ operation : Operation, operation.brackets = [operation.start, operation.ending] ∧
      operation.result.IsTold operation.start operation.ending := by
  intro outcome log place stages called operations
  have hrun : brackets log = stages.flatMap Stage.brackets :=
    brackets_run invocation tree defaultPath
  obtain ⟨hresults, hcalls⟩ := catalogues.performAll_spec calls
  have hstages : brackets called.log = (operations.map Stage.alone).flatMap Stage.brackets :=
    hcalls.trans (Stage.flatMap_alone operations).symm
  refine ⟨Stage.isWellBracketed_of_brackets hrun, hrun, fun request hcommand => ?_,
    fun paths hcommand => ?_, Stage.isWellBracketed_of_brackets hstages, hcalls, hresults,
    fun operation => ⟨rfl, operation.isTold⟩⟩
  · intro given compared
    have hvalue : outcome.differences = (place.diffExpanded given).value := by
      have hcarried : outcome.differences = (place.carryOut invocation.command).value := rfl
      rw [hcarried, hcommand]
      exact (place.diff_spec request).1
    refine ⟨?_, hvalue.trans (place.diffExpanded_spec given).1, fun old new _ =>
      ⟨place.file?_inside given old new, place.result_getLast?_inside given old new⟩⟩
    simp only [stages, hcommand]
    rfl
  · obtain ⟨files, hfiles⟩ := place.exists_filesToPrint paths
    refine ⟨files, hfiles, ?_, place.file?_loading _ files⟩
    simp only [stages, hcommand, Workplace.stages, hfiles]

end CommandLine

end ActivityCatalogue
