import ActivityCatalogue.Proofs.ExitCode
import ActivityCatalogue.Proofs.SnapshotStorage

/-!
# Broken files stay without effect

A path is broken if it is not named as a snapshot file, if nothing can be read there, or if
what is read spells no snapshot or one with a name missing (`Broken`).  Each broken path is
complained of once and changes no catalogue.  As an attempt to load a path reads the file
tree alone, broken paths can be left out of a list before it is loaded (`addFiles_filter`):
the catalogue is the same, and so is whatever is told of it.
-/

namespace ActivityCatalogue

namespace CommandLine

namespace Workplace

variable {place : Workplace} {path : String} {paths : List String} {fault : Fault}

/-! ## Broken paths -/

/-- A path is broken, and this is the fault that is complained of. -/
inductive Broken (place : Workplace) (path : String) : Fault → Prop
  | unsupported (hname : PackageFile.isSnapshot path = false) :
      Broken place path
        { kind := .unsupportedInput, path := some path, message := "Unsupported file type." }
  | unreadable (failure : FileFailure) (hname : PackageFile.isSnapshot path = true)
      (hread : place.tree.readText path = .error failure) :
      Broken place path
        { kind := .io, operation := some "populate_catalogue", path := some path,
          message := failure.reason }
  | malformed (text : String) (hname : PackageFile.isSnapshot path = true)
      (hread : place.tree.readText path = .ok text)
      (hparse : (Json.read text).bind Snapshot.ofJson? = none) :
      Broken place path
        { kind := .invalidSnapshot, operation := some "populate_catalogue", path := some path,
          message := "Snapshot parse error: " ++ Snapshot.Defect.malformed.message }
  | defective (text : String) (snapshot : Snapshot) (defect : Snapshot.Defect)
      (hname : PackageFile.isSnapshot path = true)
      (hread : place.tree.readText path = .ok text)
      (hparse : (Json.read text).bind Snapshot.ofJson? = some snapshot)
      (hdefect : snapshot.FirstDefect defect) :
      Broken place path
        { kind := .invalidSnapshot, operation := some "populate_catalogue", path := some path,
          message := "Snapshot parse error: " ++ defect.message }

theorem Broken.path_eq (hbroken : place.Broken path fault) : fault.path = some path := by
  cases hbroken
  all_goals rfl

theorem Broken.message_ne (hbroken : place.Broken path fault) : fault.message ≠ "" := by
  cases hbroken with
  | unsupported hname => simp
  | unreadable failure hname hread =>
      cases failure
      all_goals simp [FileFailure.reason]
  | malformed text hname hread hparse => simp
  | defective text snapshot defect hname hread hparse hdefect => simp

/-- A broken path is complained of in two lines. -/
theorem Broken.complaint_eq (hbroken : place.Broken path fault) :
    complaint fault = "ERROR: " ++ fault.message ++ "\n" ++ ("  " ++ path ++ "\n") := by
  have hmessage : fault.message.isEmpty = false := by simpa using hbroken.message_ne
  rw [complaint, hmessage, hbroken.path_eq]
  rfl

theorem load_of_readText {text : String} (hread : place.tree.readText path = .ok text) :
    Snapshot.load place.tree path = Snapshot.parse path text := by
  rw [Snapshot.load, hread]

/-- An attempt to load a broken path gives its fault. -/
theorem Broken.attempt_eq (hbroken : place.Broken path fault) :
    place.attempt path = .error fault := by
  cases hbroken with
  | unsupported hname => exact attempt_of_not_isSnapshot hname
  | unreadable failure hname hread =>
      rw [attempt_of_isSnapshot hname, Snapshot.load, hread]
      rfl
  | malformed text hname hread hparse =>
      rw [attempt_of_isSnapshot hname, load_of_readText hread, Snapshot.parse,
        Snapshot.ofText_of_malformed hparse]
      rfl
  | defective text snapshot defect hname hread hparse hdefect =>
      have hfirst := (snapshot.defect?_eq_some_iff defect).mpr hdefect
      rw [attempt_of_isSnapshot hname, load_of_readText hread, Snapshot.parse,
        Snapshot.ofText_of_defect hparse hfirst]
      rfl

theorem loads_or_broken (place : Workplace) (path : String) :
    place.Loads path ∨ ∃ fault, place.Broken path fault := by
  by_cases hname : PackageFile.isSnapshot path = true
  · cases hread : place.tree.readText path with
    | error failure => exact Or.inr ⟨_, .unreadable failure hname hread⟩
    | ok text =>
        cases hparse : (Json.read text).bind Snapshot.ofJson? with
        | none => exact Or.inr ⟨_, .malformed text hname hread hparse⟩
        | some snapshot =>
            cases hdefect : snapshot.defect? with
            | none =>
                refine Or.inl ⟨hname, snapshot, ?_⟩
                rw [load_of_readText hread, Snapshot.parse,
                  Snapshot.ofText_of_named hparse hdefect]
                rfl
            | some defect =>
                have hfirst := (snapshot.defect?_eq_some_iff defect).mp hdefect
                exact Or.inr ⟨_, .defective text snapshot defect hname hread hparse hfirst⟩
  · exact Or.inr ⟨_, .unsupported (by simpa using hname)⟩

theorem fault?_eq_some_iff : place.fault? path = some fault ↔ place.Broken path fault := by
  have hgiven : ∀ other, place.Broken path other → place.fault? path = some other := by
    intro other hbroken
    unfold fault?
    rw [hbroken.attempt_eq]
  refine ⟨fun hfault => ?_, hgiven fault⟩
  rcases place.loads_or_broken path with hloads | ⟨other, hbroken⟩
  · rw [fault?_eq_none_iff.mpr hloads] at hfault
    cases hfault
  · obtain rfl := Option.some.inj ((hgiven other hbroken).symm.trans hfault)
    exact hbroken

theorem not_loads_iff : ¬ place.Loads path ↔ ∃ fault, place.Broken path fault := by
  rw [← fault?_eq_none_iff, ← ne_eq, Option.ne_none_iff_exists']
  simp only [fault?_eq_some_iff]

instance (place : Workplace) : DecidablePred place.Loads := fun _ =>
  decidable_of_iff _ fault?_eq_none_iff

/-! ## Leaving broken paths out -/

theorem Broken.addFile_spec (hbroken : place.Broken path fault) (catalogue : Catalogue) :
    (place.addFile catalogue path).value = catalogue ∧
      (place.addFile catalogue path).transcript.complaints = [fault] := by
  obtain ⟨hvalue, hcomplaints, -⟩ := place.addFile_spec catalogue path
  rw [snapshot?, hbroken.attempt_eq] at hvalue
  rw [fault?_eq_some_iff.mpr hbroken] at hcomplaints
  exact ⟨hvalue, hcomplaints⟩

theorem Loads.value_addFile (hloads : place.Loads path) (catalogue : Catalogue) :
    (place.addFile catalogue path).value =
      (catalogue.populate (Snapshot.provider place.tree path)).value.1 := by
  unfold addFile
  rw [if_pos hloads.1, Session.value_bind, Session.value_ofLogged]
  obtain ⟨filled, outcome⟩ := (catalogue.populate (Snapshot.provider place.tree path)).value
  cases outcome with
  | error fault => rfl
  | ok report => rfl

theorem value_addFiles_cons (place : Workplace) (catalogue : Catalogue) (path : String)
    (rest : List String) :
    (place.addFiles catalogue (path :: rest)).value =
      (place.addFiles (place.addFile catalogue path).value rest).value := by
  rw [addFiles, Session.value_bind]

/-- Loading several files fills a catalogue from those that load, by induction on their list. -/
theorem value_addFiles_eq (place : Workplace) (catalogue : Catalogue) (paths : List String) :
    (place.addFiles catalogue paths).value = (paths.filter (place.Loads ·)).foldl
      (fun filled path => (filled.populate (Snapshot.provider place.tree path)).value.1)
        catalogue := by
  induction paths generalizing catalogue with
  | nil => rfl
  | cons path rest ih =>
      rw [value_addFiles_cons, ih]
      by_cases hloads : place.Loads path
      · rw [List.filter_cons_of_pos (by simpa using hloads), List.foldl_cons,
          hloads.value_addFile]
      · obtain ⟨fault, hbroken⟩ := not_loads_iff.mp hloads
        rw [List.filter_cons_of_neg (by simpa using hloads), (hbroken.addFile_spec catalogue).1]

/-- The faults are those of the broken paths, in order. -/
theorem forall₂_faults (place : Workplace) (paths : List String) :
    List.Forall₂ place.Broken (paths.filter (¬ place.Loads ·)) (place.faults paths) := by
  induction paths with
  | nil => exact .nil
  | cons path rest ih =>
      rw [faults_cons]
      by_cases hloads : place.Loads path
      · rw [fault?_eq_none_iff.mpr hloads, List.filter_cons_of_neg (by simpa using hloads)]
        exact ih
      · obtain ⟨fault, hbroken⟩ := not_loads_iff.mp hloads
        rw [fault?_eq_some_iff.mpr hbroken, List.filter_cons_of_pos (by simpa using hloads)]
        exact .cons hbroken ih

theorem merged_filter (place : Workplace) (paths : List String) :
    place.merged (paths.filter (place.Loads ·)) = place.merged paths := by
  have hsame : (paths.filter (place.Loads ·)).filter (place.Loads ·) =
      paths.filter (place.Loads ·) := by
    rw [List.filter_filter]
    simp
  rw [← value_load, ← value_load, load, load, value_addFiles_eq, value_addFiles_eq, hsame]

theorem faults_eq_nil_iff_filter :
    place.faults paths = [] ↔ paths.filter (place.Loads ·) = paths := by
  rw [faults_eq_nil_iff, List.filter_eq_self]
  simp only [decide_eq_true_eq]

/-! ## Printing -/

/-- A path that stands for itself when it is printed: no directory, and no pattern that
matches something. -/
def IsPlain (place : Workplace) (path : String) : Prop :=
  place.tree.isDirectory path = false ∧ (place.tree.expandAll path).value = [path]

theorem Loads.isPlain (hloads : place.Loads path) : place.IsPlain path := by
  obtain ⟨-, snapshot, hload⟩ := hloads
  have hread : ∃ text, place.tree.readText path = .ok text := by
    cases hread : place.tree.readText path with
    | error failure => simp [Snapshot.load, hread] at hload
    | ok text => exact ⟨text, rfl⟩
  obtain ⟨text, hread⟩ := hread
  obtain ⟨content, hfind, -⟩ := FileTree.readText_eq_ok_iff.mp hread
  have hexists : place.tree.pathExists path = true := FileTree.pathExists_of_find hfind
  refine ⟨by simp [FileTree.isDirectory, hfind], ?_⟩
  simp [FileTree.expandAll, FileTree.expansion, hexists]

theorem value_filesToPrint_cons_of_isPlain (hplain : place.IsPlain path) (rest : List String) :
    (place.filesToPrint (path :: rest)).value =
      (place.filesToPrint rest).value.map ([path] ++ ·) := by
  rw [filesToPrint, hplain.1]
  simp only [Bool.false_eq_true, if_false, Logged.value_bind, hplain.2, Logged.value_pure]

theorem value_filesToPrint_of_isPlain (hplain : ∀ path ∈ paths, place.IsPlain path) :
    (place.filesToPrint paths).value = .ok paths := by
  induction paths with
  | nil => rfl
  | cons path rest ih =>
      obtain ⟨hpath, hrest⟩ := List.forall_mem_cons.mp hplain
      rw [value_filesToPrint_cons_of_isPlain hpath, ih hrest]
      rfl

/-- Directories can be listed, so there are always files to print. -/
theorem exists_filesToPrint (place : Workplace) (paths : List String) :
    ∃ files, (place.filesToPrint paths).value = .ok files := by
  induction paths with
  | nil => exact ⟨[], rfl⟩
  | cons path rest ih =>
      obtain ⟨further, hfurther⟩ := ih
      rw [filesToPrint]
      by_cases hdirectory : place.tree.isDirectory path = true
      · obtain ⟨files, hfiles, -⟩ := PackageFile.exists_filesIn_of_isDirectory hdirectory
        rw [if_pos hdirectory, hfiles]
        simp only [Logged.value_bind, hfurther, Logged.value_pure]
        exact ⟨files ++ further, rfl⟩
      · rw [if_neg hdirectory]
        simp only [Logged.value_bind, hfurther, Logged.value_pure]
        exact ⟨_, rfl⟩

theorem print_spec {files : List String} (hfiles : (place.filesToPrint paths).value = .ok files) :
    (place.print paths).transcript.output =
        (place.merged files).listing place.settings.simplifier ∧
      (place.print paths).transcript.complaints = place.faults files := by
  simp [print, hfiles, value_load, output_load, complaints_load]

end Workplace

/-! ## Runs -/

section

variable (settingsPath : Option String) (debug : Bool) (tree : FileTree) (defaultPath : String)

theorem run_print_spec (paths : List String) :
    let outcome := Invocation.run ⟨settingsPath, debug, .print paths⟩ tree defaultPath
    let place := workplaceOf tree (settingsPath.getD defaultPath)
    ∃ files, (place.filesToPrint paths).value = .ok files ∧
      outcome.transcript.output = (place.merged files).listing place.settings.simplifier ∧
      (outcome.exitCode = 0 ↔ place.faults files = []) := by
  intro outcome place
  obtain ⟨files, hfiles⟩ := place.exists_filesToPrint paths
  obtain ⟨houtput, hcomplaints⟩ := Workplace.print_spec hfiles
  have hrun : outcome.transcript.complaints = (place.print paths).transcript.complaints :=
    List.append_nil _
  refine ⟨files, hfiles, ?_, ?_⟩
  · rw [← houtput]
    exact String.append_empty
  · rw [exitCode_eq_zero_iff, hrun, hcomplaints]
    exact and_iff_right rfl

theorem run_print_filter (paths : List String) :
    let run := fun paths => Invocation.run ⟨settingsPath, debug, .print paths⟩ tree defaultPath
    let place := workplaceOf tree (settingsPath.getD defaultPath)
    ∃ files, (place.filesToPrint paths).value = .ok files ∧
      (run paths).transcript.output = (run (files.filter (place.Loads ·))).transcript.output ∧
      ((run paths).exitCode = 0 ↔ files.filter (place.Loads ·) = files) := by
  intro run place
  obtain ⟨files, hfiles, houtput, hexit⟩ :=
    run_print_spec settingsPath debug tree defaultPath paths
  obtain ⟨others, hothers, hothersOutput, -⟩ :=
    run_print_spec settingsPath debug tree defaultPath (files.filter (place.Loads ·))
  -- Files that load stand for themselves.
  have hplain : ∀ path ∈ files.filter (place.Loads ·), place.IsPlain path := by
    intro path hpath
    have hloads : place.Loads path := by simpa using (List.mem_filter.mp hpath).2
    exact hloads.isPlain
  rw [Workplace.value_filesToPrint_of_isPlain hplain] at hothers
  obtain rfl := Except.ok.inj hothers
  refine ⟨files, hfiles, ?_, hexit.trans Workplace.faults_eq_nil_iff_filter⟩
  rw [houtput, hothersOutput, Workplace.merged_filter]

end

namespace Workplace

variable {place : Workplace} {request : DiffRequest} {third : String} {fault : Fault}

/-! ## A third file -/

theorem merged_concat_of_broken (hbroken : place.Broken third fault) (paths : List String) :
    place.merged (paths ++ [third]) = place.merged paths := by
  have hnot : ¬ place.Loads third := not_loads_iff.mpr ⟨fault, hbroken⟩
  rw [← merged_filter, List.filter_append, List.filter_cons_of_neg (by simpa using hnot),
    List.filter_nil, List.append_nil, merged_filter]

theorem faults_concat_of_broken (hbroken : place.Broken third fault) (paths : List String) :
    place.faults (paths ++ [third]) = place.faults paths ++ [fault] := by
  have hlast : place.faults [third] = [fault] := by
    rw [faults_cons, fault?_eq_some_iff.mpr hbroken]
    rfl
  rw [← hlast, faults, faults, faults, List.filterMap_append]

/-- A broken third file adds a complaint and changes no difference. -/
theorem diffExpanded_third
    (hfiles : ¬ (place.tree.isDirectory request.old = true ∧
      place.tree.isDirectory request.new = true)) (hbroken : place.Broken third fault) :
    (place.diffExpanded { request with extra := some third }).value =
        (place.diffExpanded { request with extra := none }).value ∧
      (place.diffExpanded { request with extra := some third }).transcript.complaints =
        (place.diffExpanded { request with extra := none }).transcript.complaints ++ [fault] := by
  have hcases : ∀ extra, place.diffExpanded { request with extra } =
      place.diffFiles { request with extra } request.old (request.new :: extra.toList) :=
    fun extra => diffExpanded_of_files hfiles
  have hmerged := merged_concat_of_broken hbroken [request.new]
  have hfaults := faults_concat_of_broken hbroken [request.old, request.new]
  rw [hcases, hcases, value_diffFiles, value_diffFiles, complaints_diffFiles,
    complaints_diffFiles]
  exact ⟨congrArg _ hmerged, hfaults⟩

end Workplace

/-- **Main statement.**  Broken files stay without effect.

* A path that does not load is broken in one of four ways.  It leaves the catalogue as it is
  and is complained of once.
* Loading a list of files comes to filling the catalogue from those that load, in order, and
  complaining of the others, in order.
* Printing a list of files writes what printing those that load writes, and exits with zero
  if these are all.  The files are the paths that are given, apart from directories and
  patterns.
* A broken third file of a diff adds nothing to the new side and a complaint at the end. -/
theorem broken_files_stay_apart :
    (∀ (place : Workplace) path, ¬ place.Loads path ↔ ∃ fault, place.Broken path fault) ∧
    (∀ (place : Workplace) catalogue path fault, place.Broken path fault →
      (place.addFile catalogue path).value = catalogue ∧
      (place.addFile catalogue path).transcript.complaints = [fault] ∧
      complaint fault = "ERROR: " ++ fault.message ++ "\n" ++ ("  " ++ path ++ "\n")) ∧
    (∀ (place : Workplace) catalogue paths,
      (place.addFiles catalogue paths).value = (paths.filter (place.Loads ·)).foldl
        (fun filled path => (filled.populate (Snapshot.provider place.tree path)).value.1)
        catalogue ∧
      List.Forall₂ place.Broken (paths.filter (¬ place.Loads ·))
        (place.addFiles catalogue paths).transcript.complaints) ∧
    ∀ settingsPath debug tree defaultPath,
      let place := workplaceOf tree (settingsPath.getD defaultPath)
      let run := fun command => Invocation.run ⟨settingsPath, debug, command⟩ tree defaultPath
      (∀ paths, ∃ files, (place.filesToPrint paths).value = .ok files ∧
        ((∀ path ∈ paths, place.IsPlain path) → files = paths) ∧
        (run (.print paths)).transcript.output =
          (run (.print (files.filter (place.Loads ·)))).transcript.output ∧
        ((run (.print paths)).exitCode = 0 ↔ files.filter (place.Loads ·) = files)) ∧
      ∀ (request : DiffRequest) extra fault,
        let given := place.expandedRequest request
        let third := (place.tree.expandSingle extra).value
        ¬ (place.tree.isDirectory given.old = true ∧ place.tree.isDirectory given.new = true) →
        place.Broken third fault →
          (place.load [given.new, third]).value = (place.load [given.new]).value ∧
          (run (.diff { request with extra := some extra })).differences =
            (run (.diff { request with extra := none })).differences ∧
          (run (.diff { request with extra := some extra })).transcript.complaints =
            (run (.diff { request with extra := none })).transcript.complaints ++ [fault] := by
  refine ⟨fun place path => Workplace.not_loads_iff, fun place catalogue path fault hbroken => ?_,
    fun place catalogue paths => ?_, fun settingsPath debug tree defaultPath => ⟨?_, ?_⟩⟩
  · obtain ⟨hvalue, hcomplaints⟩ := hbroken.addFile_spec catalogue
    exact ⟨hvalue, hcomplaints, hbroken.complaint_eq⟩
  · refine ⟨place.value_addFiles_eq catalogue paths, ?_⟩
    rw [(place.addFiles_spec catalogue paths).2.1]
    exact place.forall₂_faults paths
  · intro paths
    obtain ⟨files, hfiles, houtput, hexit⟩ :=
      run_print_filter settingsPath debug tree defaultPath paths
    refine ⟨files, hfiles, fun hplain => ?_, houtput, hexit⟩
    rw [Workplace.value_filesToPrint_of_isPlain hplain] at hfiles
    exact (Except.ok.inj hfiles).symm
  · intro request extra fault given third hnotDirectories hbroken
    obtain ⟨hvalue, -, hcomplaints, -⟩ := run_diff_spec settingsPath debug
      { request with extra := some extra } tree defaultPath
    obtain ⟨hvalueWithout, -, hcomplaintsWithout, -⟩ := run_diff_spec settingsPath debug
      { request with extra := none } tree defaultPath
    obtain ⟨hdifferences, hadded⟩ := Workplace.diffExpanded_third hnotDirectories hbroken
    refine ⟨?_, ?_, ?_⟩
    · rw [Workplace.value_load, Workplace.value_load]
      exact Workplace.merged_concat_of_broken hbroken [given.new]
    · rw [hvalue, hvalueWithout]
      exact hdifferences
    · rw [hcomplaints, hcomplaintsWithout]
      exact hadded

/-- A diff of two files with one of notes as the third. -/
def diffWithNotes : DiffRequest where
  old := "a.json"
  new := "b.json"
  extra := some "notes.txt"

/-- A file of notes is no snapshot: added, printed or given as a third file, it leads to one
complaint and nothing else.  The tree is empty and its root is no settings file. -/
theorem notes_stay_apart :
    let place : Workplace := ⟨{}, {}⟩
    let fault : Fault := { kind := .unsupportedInput, path := some "notes.txt",
                           message := "Unsupported file type." }
    let run := fun command => Invocation.run ⟨some "/", false, command⟩ {} ""
    place.Broken "notes.txt" fault ∧
      (place.addFile (.empty .empty) "notes.txt").value = .empty .empty ∧
      (place.addFile (.empty .empty) "notes.txt").transcript.complaints = [fault] ∧
      complaint fault = "ERROR: Unsupported file type.\n  notes.txt\n" ∧
      (run (.print ["notes.txt"])).transcript.output = (run (.print [])).transcript.output ∧
      (run (.print ["notes.txt"])).exitCode ≠ 0 ∧
      (run (.diff diffWithNotes)).differences =
        (run (.diff { diffWithNotes with extra := none })).differences ∧
      (run (.diff diffWithNotes)).transcript.complaints =
        (run (.diff { diffWithNotes with extra := none })).transcript.complaints ++ [fault] := by
  intro place fault run
  obtain ⟨hfound, hone, -, hruns⟩ := broken_files_stay_apart
  have hplace : workplaceOf {} "/" = place := by
    have hexists : ({} : FileTree).pathExists "/" = true := by cbv
    have hread : ({} : FileTree).readText "/" = .error .isDirectory := by cbv
    simp [workplaceOf, Settings.loadOrCreate, hexists, Settings.load, hread, place]
  have hbroken : place.Broken "notes.txt" fault := .unsupported (by cbv)
  obtain ⟨hvalue, hcomplaints, hlines⟩ := hone place (.empty .empty) "notes.txt" fault hbroken
  obtain ⟨hprint, hdiff⟩ := hruns (some "/") false {} ""
  rw [Option.getD_some, hplace] at hprint hdiff
  have hplain : place.IsPlain "notes.txt" := by
    constructor
    · cbv
    · cbv
  have hnone : ["notes.txt"].filter (place.Loads ·) = [] := by
    have hnot : ¬ place.Loads "notes.txt" := (hfound place "notes.txt").mpr ⟨fault, hbroken⟩
    simp [hnot]
  obtain ⟨files, -, hfiles, houtput, hexit⟩ := hprint ["notes.txt"]
  obtain rfl := hfiles (List.forall_mem_singleton.mpr hplain)
  rw [hnone] at houtput hexit
  have hold : (place.tree.expandSingle "a.json").value = "a.json" := by cbv
  have hthird : (place.tree.expandSingle "notes.txt").value = "notes.txt" := by cbv
  have hnotDirectory : place.tree.isDirectory "a.json" = false := by cbv
  obtain ⟨-, hdifferences, hadded⟩ := hdiff diffWithNotes "notes.txt" fault
    (fun hdirectories => by
      have hgiven : (place.expandedRequest diffWithNotes).old = "a.json" := hold
      rw [hgiven, hnotDirectory] at hdirectories
      cases hdirectories.1)
    (by rw [hthird]; exact hbroken)
  have hfails : (run (.print ["notes.txt"])).exitCode ≠ 0 := fun hzero =>
    List.cons_ne_nil _ _ (hexit.mp hzero).symm
  exact ⟨hbroken, hvalue, hcomplaints, hlines, houtput, hfails, hdifferences, hadded⟩

end CommandLine

end ActivityCatalogue
