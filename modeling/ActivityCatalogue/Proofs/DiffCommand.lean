import ActivityCatalogue.Proofs.CatalogueAgreement
import ActivityCatalogue.Proofs.Loading
import ActivityCatalogue.Proofs.LogBrackets
import ActivityCatalogue.Proofs.PackagePairing
import ActivityCatalogue.Proofs.Replacement

/-!
# When a diff ends well

A diff compares one file with one or two others, or the pairs of two directories.  Each
comparison goes on with what can be loaded, and differences and complaints add up to the
end.

* **Files.**  A comparison ends well if all of its files load and both sides show the
  same (`endsWell_diffFiles_iff`).
* **Directories.**  The session is made of those of its pairs (`diffPairs_spec`), so it
  ends well if each of them does.  A directory can always be listed, and what it lists
  are snapshot files, so nothing else is opened.

Together this is what it takes for a diff to succeed (`endsWell_diffExpanded_iff`).  How
the result is written plays no part in it, and of the way in which types are compared
only whether they are.
-/

namespace ActivityCatalogue

open Comparison (Sensitivity ShowSame)

/-! ## What the log tells of a run -/

namespace Log

/-- The number of differences with which a comparison ends. -/
def Entry.counted? (entry : Entry) : Option Nat :=
  match entry.boundary, entry.details with
  | some (operation, .finish), [(_, .count differences)] =>
    if operation = Comparison.operation then some differences else none
  | _, _ => none

/-- The file from which a catalogue starts to be filled. -/
def Entry.opened? (entry : Entry) : Option String :=
  match entry.boundary, entry.details with
  | some (operation, .start), [(_, .text path)] =>
    if operation = Catalogue.populateOperation then some path else none
  | _, _ => none

/-- The numbers of differences that comparisons gave, in order. -/
def comparisonResults (log : List Entry) : List Nat := log.filterMap Entry.counted?

/-- The files from which catalogues were filled, in order. -/
def filesOpened (log : List Entry) : List String := log.filterMap Entry.opened?

@[simp] theorem comparisonResults_append (first second : List Entry) :
    comparisonResults (first ++ second) = comparisonResults first ++ comparisonResults second :=
  List.filterMap_append ..

@[simp] theorem filesOpened_append (first second : List Entry) :
    filesOpened (first ++ second) = filesOpened first ++ filesOpened second :=
  List.filterMap_append ..

/-- The end of an operation opens no file. -/
@[simp] theorem opened?_finished (source : Source) (operation : String)
    (details : List (String × Value)) : (finished source operation details).opened? = none :=
  rfl

/-- No operation but filling a catalogue opens one. -/
theorem opened?_started_of_ne {operation : String} (hne : operation ≠ Catalogue.populateOperation)
    (source : Source) (details : List (String × Value)) :
    (started source operation details).opened? = none := by
  unfold Entry.opened? started
  split
  · next hboundary _ =>
      obtain ⟨rfl, -⟩ := Prod.mk.inj (Option.some.inj hboundary)
      exact if_neg hne
  · rfl

theorem comparisonResults_flatMap {α : Type} (told : α → List Entry) (places : List α) :
    comparisonResults (places.flatMap told) =
      places.flatMap fun place => comparisonResults (told place) :=
  List.filterMap_flatMap ..

theorem filesOpened_flatMap {α : Type} (told : α → List Entry) (places : List α) :
    filesOpened (places.flatMap told) = places.flatMap fun place => filesOpened (told place) :=
  List.filterMap_flatMap ..

theorem comparisonResults_brackets (log : List Entry) :
    comparisonResults (brackets log) = comparisonResults log :=
  filterMap_brackets (fun entry hplain => by simp [Entry.counted?, hplain]) log

theorem filesOpened_brackets (log : List Entry) :
    filesOpened (brackets log) = filesOpened log :=
  filterMap_brackets (fun entry hplain => by simp [Entry.opened?, hplain]) log

end Log

/-! ## Directories -/

theorem FileTree.exists_list_of_isDirectory {tree : FileTree} {path : String}
    (hdirectory : tree.isDirectory path = true) : ∃ names, tree.list path = .ok names := by
  obtain ⟨route, place, hroute, hplace, hnode, -⟩ :=
    find_eq_ok_iff.mp (isDirectory_iff.mp hdirectory)
  exact ⟨_, list_eq_ok_iff.mpr ⟨route, place, hroute, hplace, hnode, rfl⟩⟩

namespace PackageFile

/-- A directory can be read, and what is read are snapshot files. -/
theorem exists_filesIn_of_isDirectory {tree : FileTree} {directory : String}
    (hdirectory : tree.isDirectory directory = true) :
    ∃ files, filesIn tree directory = .ok files ∧ ∀ file ∈ files, isSnapshot file = true := by
  obtain ⟨names, hnames⟩ := FileTree.exists_list_of_isDirectory hdirectory
  unfold filesIn
  rw [hnames]
  refine ⟨_, rfl, fun file hfile => ?_⟩
  have hkept := List.mem_filter.mp ((sort_perm _).mem_iff.mp hfile)
  exact (Bool.and_eq_true_iff.mp hkept.2).2

/-- Two directories can be paired, and the pairs are of snapshot files. -/
theorem exists_pairDirectories_of_isDirectory {tree : FileTree} {old new : String}
    (hold : tree.isDirectory old = true) (hnew : tree.isDirectory new = true) :
    ∃ pairs, pairDirectories tree old new = .ok pairs ∧
      ∀ l r, .both l r ∈ pairs → isSnapshot l = true ∧ isSnapshot r = true := by
  obtain ⟨oldFiles, holdFiles, holdSnapshots⟩ := exists_filesIn_of_isDirectory hold
  obtain ⟨newFiles, hnewFiles, hnewSnapshots⟩ := exists_filesIn_of_isDirectory hnew
  refine ⟨pair oldFiles newFiles, ?_, fun l r hboth => ?_⟩
  · unfold pairDirectories
    rw [holdFiles, hnewFiles]
    rfl
  · have hl : l ∈ oldFiles := mem_of_first?_align hboth rfl
    have hr : r ∈ newFiles := mem_of_second?_align hboth rfl
    exact ⟨holdSnapshots l hl, hnewSnapshots r hr⟩

end PackageFile

namespace CommandLine

open Log (comparisonResults filesOpened)

/-! ## Loading -/

namespace Workplace

variable {place : Workplace} {request : DiffRequest}

theorem comparisonResults_addFile (place : Workplace) (catalogue : Catalogue) (path : String) :
    comparisonResults (place.addFile catalogue path).transcript.log = [] := by
  rw [← Log.comparisonResults_brackets, brackets_addFile]
  split
  · cases (catalogue.populate (Snapshot.provider place.tree path)).value.2 with
    | ok report => rfl
    | error fault => rfl
  · rfl

theorem filesOpened_addFile (place : Workplace) (catalogue : Catalogue) (path : String) :
    filesOpened (place.addFile catalogue path).transcript.log =
      [path].filter PackageFile.isSnapshot := by
  rw [← Log.filesOpened_brackets, brackets_addFile]
  by_cases hname : PackageFile.isSnapshot path = true
  · rw [if_pos hname, List.filter_cons_of_pos hname]
    cases (catalogue.populate (Snapshot.provider place.tree path)).value.2 with
    | ok report => rfl
    | error fault => rfl
  · rw [if_neg hname, List.filter_cons_of_neg hname]
    rfl

theorem logged_addFiles (place : Workplace) (catalogue : Catalogue) (paths : List String) :
    comparisonResults (place.addFiles catalogue paths).transcript.log = [] ∧
      filesOpened (place.addFiles catalogue paths).transcript.log =
        paths.filter PackageFile.isSnapshot := by
  induction paths generalizing catalogue with
  | nil => exact ⟨rfl, rfl⟩
  | cons path rest ih =>
      obtain ⟨hresults, hopened⟩ := ih (place.addFile catalogue path).value
      have hpath : (path :: rest).filter PackageFile.isSnapshot =
          [path].filter PackageFile.isSnapshot ++ rest.filter PackageFile.isSnapshot :=
        List.filter_append [path] rest
      simp [addFiles, comparisonResults_addFile, filesOpened_addFile, hresults, hopened, hpath]

/-! ## Comparing files -/

/-- A file and one or more other ones pass if all of them load and both sides show the
same. -/
structure Passes (place : Workplace) (sensitivity : Sensitivity) (old : String)
    (new : List String) : Prop where
  loads : ∀ path ∈ old :: new, place.Loads path
  showSame : ShowSame sensitivity (place.merged [old]) (place.merged new)

theorem passes_typedLoose_iff {old : String} {new : List String} :
    place.Passes .typedLoose old new ↔ place.Passes .typedStrict old new := by
  constructor
  · exact fun hpasses => ⟨hpasses.loads, Comparison.showSame_typedLoose_iff.mp hpasses.showSame⟩
  · exact fun hpasses => ⟨hpasses.loads, Comparison.showSame_typedLoose_iff.mpr hpasses.showSame⟩

theorem complaints_sayComparison (place : Workplace) (request : DiffRequest)
    (old new : List String) (first second : Catalogue) :
    (place.sayComparison request old new first second).transcript.complaints = [] := by
  unfold sayComparison
  split
  · rfl
  · rfl

theorem value_diffFiles (place : Workplace) (request : DiffRequest) (old : String)
    (new : List String) :
    (place.diffFiles request old new).value =
      Comparison.differences request.sensitivity (place.merged [old]) (place.merged new) := by
  rw [← value_load, ← value_load]
  rfl

theorem complaints_diffFiles (place : Workplace) (request : DiffRequest) (old : String)
    (new : List String) :
    (place.diffFiles request old new).transcript.complaints = place.faults (old :: new) := by
  have hfaults : place.faults (old :: new) = place.faults [old] ++ place.faults new := by
    rw [faults_cons, faults_cons, List.append_assoc]
    rfl
  simp [diffFiles, complaints_sayComparison, complaints_load, hfaults]

/-- The log tells the result of the comparison and no other. -/
theorem comparisonResults_diffFiles (place : Workplace) (request : DiffRequest) (old : String)
    (new : List String) :
    comparisonResults (place.diffFiles request old new).transcript.log =
      [(place.diffFiles request old new).value] := by
  have hfirst : comparisonResults (place.load [old]).transcript.log = [] :=
    (place.logged_addFiles _ [old]).1
  have hsecond : comparisonResults (place.load new).transcript.log = [] :=
    (place.logged_addFiles _ new).1
  rw [← Log.comparisonResults_brackets, brackets_diffFiles, ← List.singleton_append,
    Log.comparisonResults_append, Log.comparisonResults_append, Log.comparisonResults_append,
    Log.comparisonResults_brackets, Log.comparisonResults_brackets, hfirst, hsecond]
  rfl

theorem filesOpened_diffFiles (place : Workplace) (request : DiffRequest) (old : String)
    (new : List String) :
    filesOpened (place.diffFiles request old new).transcript.log =
      (old :: new).filter PackageFile.isSnapshot := by
  have hfirst : filesOpened (place.load [old]).transcript.log =
      [old].filter PackageFile.isSnapshot := (place.logged_addFiles _ [old]).2
  have hsecond : filesOpened (place.load new).transcript.log =
      new.filter PackageFile.isSnapshot := (place.logged_addFiles _ new).2
  have hnew : (old :: new).filter PackageFile.isSnapshot =
      [old].filter PackageFile.isSnapshot ++ new.filter PackageFile.isSnapshot :=
    List.filter_append [old] new
  have hdiff : diffOperation ≠ Catalogue.populateOperation := by decide
  have hcompare : Comparison.operation ≠ Catalogue.populateOperation := by decide
  rw [← Log.filesOpened_brackets, brackets_diffFiles, ← List.singleton_append,
    Log.filesOpened_append, Log.filesOpened_append, Log.filesOpened_append,
    Log.filesOpened_brackets, Log.filesOpened_brackets, hfirst, hsecond, hnew]
  simp [filesOpened, Log.opened?_started_of_ne hdiff, Log.opened?_started_of_ne hcompare]

end Workplace

/-! ## Ending well -/

/-- A session that found no difference and complained of nothing. -/
def Session.EndsWell (session : Session Nat) : Prop :=
  session.value = 0 ∧ session.transcript.complaints = []

namespace Workplace

variable {place : Workplace} {request : DiffRequest}

theorem endsWell_diffFiles_iff {old : String} {new : List String} :
    (place.diffFiles request old new).EndsWell ↔ place.Passes request.sensitivity old new := by
  unfold Session.EndsWell
  rw [value_diffFiles, complaints_diffFiles, faults_eq_nil_iff,
    Comparison.differences_eq_zero_iff (place.reachable_merged _) (place.reachable_merged _)]
  exact ⟨fun hends => ⟨hends.2, hends.1⟩, fun hpasses => ⟨hpasses.showSame, hpasses.loads⟩⟩

end Workplace

/-! ## Comparing directories -/

/-- The line that is printed for a file without a counterpart. -/
def aloneLine? : Aligned String String → Option String
  | .first old => some ("Only in OLD: " ++ old)
  | .second new => some ("Only in NEW: " ++ new)
  | .both _ _ => none

/-- A line stands in a text, between the ends of two lines. -/
def HasLine (text line : String) : Prop :=
  ∃ before after, text = before ++ ("\n" ++ line ++ "\n") ++ after

theorem HasLine.append {text line : String} (hline : HasLine text line) (first : String) :
    HasLine (first ++ text) line := by
  obtain ⟨before, after, rfl⟩ := hline
  exact ⟨first ++ before, after, by simp only [String.append_assoc]⟩

namespace Workplace

variable {place : Workplace} {request : DiffRequest}

/-- The comparisons of the files that have a counterpart. -/
def comparisons (place : Workplace) (request : DiffRequest) (pairs : List (Aligned String String)) :
    List (Session Nat) :=
  (pairs.filterMap Aligned.couple?).map fun files => place.diffFiles request files.1 [files.2]

@[simp] theorem comparisons_first_cons (place : Workplace) (request : DiffRequest) (old : String)
    (rest : List (Aligned String String)) :
    place.comparisons request (.first old :: rest) = place.comparisons request rest :=
  rfl

@[simp] theorem comparisons_second_cons (place : Workplace) (request : DiffRequest) (new : String)
    (rest : List (Aligned String String)) :
    place.comparisons request (.second new :: rest) = place.comparisons request rest :=
  rfl

@[simp] theorem comparisons_both_cons (place : Workplace) (request : DiffRequest)
    (old new : String) (rest : List (Aligned String String)) :
    place.comparisons request (.both old new :: rest) =
      place.diffFiles request old [new] :: place.comparisons request rest :=
  rfl

/-- **The pairs of two directories** are compared one after the other, and what is found
in one adds up with what is found in the rest.  Files without a counterpart add nothing. -/
theorem diffPairs_spec (place : Workplace) (request : DiffRequest) (apart : Bool)
    (pairs : List (Aligned String String)) :
    let session := place.diffPairs request apart pairs
    session.value = ((place.comparisons request pairs).map Session.value).sum ∧
      session.transcript.complaints =
        (place.comparisons request pairs).flatMap (·.transcript.complaints) ∧
      session.transcript.log = (place.comparisons request pairs).flatMap (·.transcript.log) := by
  induction pairs generalizing apart with
  | nil => exact ⟨rfl, rfl, rfl⟩
  | cons pair rest ih =>
      cases pair with
      | first old => simpa [diffPairs] using ih false
      | second new => simpa [diffPairs] using ih false
      | both old new =>
          obtain ⟨hvalue, hcomplaints, hlog⟩ := ih true
          simp [diffPairs, hvalue, hcomplaints, hlog]

theorem comparisonResults_diffPairs (place : Workplace) (request : DiffRequest) (apart : Bool)
    (pairs : List (Aligned String String)) :
    comparisonResults (place.diffPairs request apart pairs).transcript.log =
      (place.comparisons request pairs).map Session.value := by
  obtain ⟨-, -, hlog⟩ := place.diffPairs_spec request apart pairs
  rw [hlog, comparisons, List.flatMap_map, Log.comparisonResults_flatMap, List.map_map,
    List.map_eq_flatMap]
  exact List.flatMap_congr fun files _ => place.comparisonResults_diffFiles request _ _

theorem mem_couples_iff {pairs : List (Aligned String String)} {l r : String} :
    (l, r) ∈ pairs.filterMap Aligned.couple? ↔ .both l r ∈ pairs := by
  rw [List.mem_filterMap]
  constructor
  · rintro ⟨pair, hpair, hcouple⟩
    cases pair with
    | first old => simp [Aligned.couple?] at hcouple
    | second new => simp [Aligned.couple?] at hcouple
    | both old new =>
        obtain ⟨rfl, rfl⟩ := Prod.mk.inj (Option.some.inj hcouple)
        exact hpair
  · exact fun hboth => ⟨.both l r, hboth, rfl⟩

/-- Only files with a counterpart are opened. -/
theorem filesOpened_diffPairs (place : Workplace) (request : DiffRequest) (apart : Bool)
    {pairs : List (Aligned String String)} (hsnapshots : ∀ l r, .both l r ∈ pairs →
      PackageFile.isSnapshot l = true ∧ PackageFile.isSnapshot r = true) :
    filesOpened (place.diffPairs request apart pairs).transcript.log =
      (pairs.filterMap Aligned.couple?).flatMap fun files => [files.1, files.2] := by
  obtain ⟨-, -, hlog⟩ := place.diffPairs_spec request apart pairs
  rw [hlog, comparisons, List.flatMap_map, Log.filesOpened_flatMap]
  refine List.flatMap_congr fun files hfiles => ?_
  obtain ⟨hl, hr⟩ := hsnapshots files.1 files.2 (mem_couples_iff.mp hfiles)
  rw [filesOpened_diffFiles, List.filter_cons_of_pos hl, List.filter_cons_of_pos hr,
    List.filter_nil]

theorem endsWell_diffPairs_iff {apart : Bool} {pairs : List (Aligned String String)} :
    (place.diffPairs request apart pairs).EndsWell ↔
      ∀ l r, .both l r ∈ pairs → place.Passes request.sensitivity l [r] := by
  obtain ⟨hvalue, hcomplaints, -⟩ := place.diffPairs_spec request apart pairs
  have heach : (place.diffPairs request apart pairs).EndsWell ↔
      ∀ session ∈ place.comparisons request pairs, session.EndsWell := by
    unfold Session.EndsWell
    rw [hvalue, hcomplaints]
    simp only [List.sum_eq_zero_iff, List.forall_mem_map, List.flatMap_eq_nil_iff]
    exact forall₂_and.symm
  rw [heach]
  simp only [comparisons, List.forall_mem_map, endsWell_diffFiles_iff, Prod.forall,
    mem_couples_iff]

/-- A file without a counterpart gets its line, whatever has been printed before. -/
theorem output_diffPairs_alone (apart : Bool) {pair : Aligned String String} {line : String}
    (hline : aloneLine? pair = some line) (rest : List (Aligned String String)) :
    (if apart then "" else "\n") ++
        (place.diffPairs request apart (pair :: rest)).transcript.output =
      ("\n" ++ line) ++ ("\n" ++ (place.diffPairs request false rest).transcript.output) := by
  have hnext : (place.diffPairs request apart (pair :: rest)).transcript.output =
      (if apart then "\n" else "") ++ (line ++ "\n") ++
        (place.diffPairs request false rest).transcript.output := by
    cases pair with
    | first old =>
        obtain rfl := Option.some.inj hline
        rfl
    | second new =>
        obtain rfl := Option.some.inj hline
        rfl
    | both old new => simp [aloneLine?] at hline
  cases apart with
  | true => simp [hnext, String.append_assoc]
  | false => simp [hnext, String.append_assoc]

/-- What two files with a counterpart bring is printed before the rest. -/
theorem exists_output_diffPairs_both (place : Workplace) (request : DiffRequest) (apart : Bool)
    (old new : String) (rest : List (Aligned String String)) :
    ∃ before, (place.diffPairs request apart (.both old new :: rest)).transcript.output =
      before ++ (place.diffPairs request true rest).transcript.output := by
  refine ⟨s!"\ndiff {old} {new}\n" ++ (place.diffFiles request old [new]).transcript.output, ?_⟩
  simp [diffPairs, String.append_assoc]

theorem hasLine_diffPairs (place : Workplace) (request : DiffRequest) (apart : Bool)
    {pairs : List (Aligned String String)} {pair : Aligned String String} (hpair : pair ∈ pairs)
    {line : String} (hline : aloneLine? pair = some line) :
    HasLine ((if apart then "" else "\n") ++
      (place.diffPairs request apart pairs).transcript.output) line := by
  induction pairs generalizing apart with
  | nil => exact absurd hpair List.not_mem_nil
  | cons head rest ih =>
      cases hhead : aloneLine? head with
      | some headLine =>
          rw [output_diffPairs_alone apart hhead]
          rcases List.mem_cons.mp hpair with rfl | hrest
          · obtain rfl : headLine = line := Option.some.inj (hhead.symm.trans hline)
            refine ⟨"", (place.diffPairs request false rest).transcript.output, ?_⟩
            simp [String.append_assoc]
          · exact (ih false hrest).append _
      | none =>
          cases head with
          | first old => simp [aloneLine?] at hhead
          | second new => simp [aloneLine?] at hhead
          | both old new =>
              have hrest : pair ∈ rest := by
                rcases List.mem_cons.mp hpair with rfl | hrest
                · simp [hhead] at hline
                · exact hrest
              have hlater := ih true hrest
              rw [if_pos rfl, String.empty_append] at hlater
              obtain ⟨before, houtput⟩ :=
                place.exists_output_diffPairs_both request apart old new rest
              rw [houtput]
              exact (hlater.append before).append _

end Workplace

/-! ## The whole command -/

namespace Workplace

variable {place : Workplace} {request : DiffRequest}

/-- The request after its paths have been expanded. -/
def expandedRequest (place : Workplace) (request : DiffRequest) : DiffRequest :=
  { request with
    old := (place.tree.expandSingle request.old).value
    new := (place.tree.expandSingle request.new).value
    extra := request.extra.map fun path => (place.tree.expandSingle path).value }

theorem value_expanded (place : Workplace) (request : DiffRequest) :
    (place.expanded request).value = place.expandedRequest request := by
  unfold expanded expandedRequest
  cases request.extra with
  | none => simp
  | some extra => simp

theorem complaints_expanded (place : Workplace) (request : DiffRequest) :
    (place.expanded request).transcript.complaints = [] := by
  unfold expanded
  cases request.extra with
  | none => rfl
  | some extra => rfl

theorem output_expanded (place : Workplace) (request : DiffRequest) :
    (place.expanded request).transcript.output = "" := by
  unfold expanded
  cases request.extra with
  | none => rfl
  | some extra => rfl

/-- What a diff command does once its paths are expanded. -/
def diffExpanded (place : Workplace) (request : DiffRequest) : Session Nat :=
  if place.tree.isDirectory request.old && place.tree.isDirectory request.new then
    if request.extra.isSome then do
      Session.complain thirdPathFault
      return 0
    else place.diffDirectories request
  else place.diffFiles request request.old (request.new :: request.extra.toList)

theorem diff_eq (place : Workplace) (request : DiffRequest) :
    place.diff request = place.expanded request >>= place.diffExpanded :=
  rfl

theorem diffExpanded_of_files (hfiles : ¬ (place.tree.isDirectory request.old = true ∧
    place.tree.isDirectory request.new = true)) :
    place.diffExpanded request =
      place.diffFiles request request.old (request.new :: request.extra.toList) := by
  unfold diffExpanded
  rw [if_neg (by simpa using hfiles)]

theorem diffExpanded_of_directories {pairs : List (Aligned String String)}
    (hold : place.tree.isDirectory request.old = true)
    (hnew : place.tree.isDirectory request.new = true)
    (hpairs : PackageFile.pairDirectories place.tree request.old request.new = .ok pairs)
    (hextra : request.extra = none) :
    place.diffExpanded request = place.diffPairs request true pairs := by
  unfold diffExpanded diffDirectories
  simp [hold, hnew, hpairs, hextra]

/-- Two directories and a third path are complained of. -/
theorem not_endsWell_of_third (hold : place.tree.isDirectory request.old = true)
    (hnew : place.tree.isDirectory request.new = true) (hextra : request.extra ≠ none) :
    ¬ (place.diffExpanded request).EndsWell := by
  have hsome : request.extra.isSome = true := Option.isSome_iff_ne_none.mpr hextra
  unfold diffExpanded Session.EndsWell
  simp [hold, hnew, hsome]

/-- What it takes for a diff of expanded paths to end well. -/
def Succeeds (place : Workplace) (request : DiffRequest) : Prop :=
  if place.tree.isDirectory request.old = true ∧ place.tree.isDirectory request.new = true then
    request.extra = none ∧
      ∃ pairs, PackageFile.pairDirectories place.tree request.old request.new = .ok pairs ∧
        ∀ l r, .both l r ∈ pairs → place.Passes request.sensitivity l [r]
  else place.Passes request.sensitivity request.old (request.new :: request.extra.toList)

theorem endsWell_diffExpanded_iff :
    (place.diffExpanded request).EndsWell ↔ place.Succeeds request := by
  unfold Succeeds
  by_cases hdirectories : place.tree.isDirectory request.old = true ∧
      place.tree.isDirectory request.new = true
  · rw [if_pos hdirectories]
    obtain ⟨hold, hnew⟩ := hdirectories
    by_cases hextra : request.extra = none
    · obtain ⟨pairs, hpairs, -⟩ := PackageFile.exists_pairDirectories_of_isDirectory hold hnew
      rw [diffExpanded_of_directories hold hnew hpairs hextra, endsWell_diffPairs_iff]
      simp [hpairs, hextra]
    · simp [not_endsWell_of_third hold hnew hextra, hextra]
  · rw [if_neg hdirectories, diffExpanded_of_files hdirectories, endsWell_diffFiles_iff]

/-- How the result is written plays no part. -/
theorem succeeds_asJson_iff (place : Workplace) (request : DiffRequest) (asJson : Bool) :
    place.Succeeds { request with asJson } ↔ place.Succeeds request :=
  Iff.rfl

theorem succeeds_typedLoose_iff (place : Workplace) (request : DiffRequest) :
    place.Succeeds { request with sensitivity := .typedLoose } ↔
      place.Succeeds { request with sensitivity := .typedStrict } := by
  unfold Succeeds
  simp only [passes_typedLoose_iff]

/-- **Files** are compared once, whether they load or not. -/
theorem diffExpanded_files_spec (place : Workplace) (request : DiffRequest)
    (hfiles : ¬ (place.tree.isDirectory request.old = true ∧
      place.tree.isDirectory request.new = true)) :
    (place.Succeeds request ↔
      place.Passes request.sensitivity request.old (request.new :: request.extra.toList)) ∧
    comparisonResults (place.diffExpanded request).transcript.log =
      [Comparison.differences request.sensitivity (place.merged [request.old])
        (place.merged (request.new :: request.extra.toList))] := by
  refine ⟨?_, ?_⟩
  · unfold Succeeds
    rw [if_neg hfiles]
  · rw [diffExpanded_of_files hfiles, comparisonResults_diffFiles, value_diffFiles]

/-- **Directories** without a third path are compared pair by pair. -/
theorem diffExpanded_directories_spec (place : Workplace) (request : DiffRequest)
    (hdirectories : place.tree.isDirectory request.old = true ∧
      place.tree.isDirectory request.new = true) :
    ∃ pairs, PackageFile.pairDirectories place.tree request.old request.new = .ok pairs ∧
      (place.Succeeds request ↔ request.extra = none ∧
        ∀ l r, .both l r ∈ pairs → place.Passes request.sensitivity l [r]) ∧
      (request.extra = none →
        comparisonResults (place.diffExpanded request).transcript.log =
          (pairs.filterMap Aligned.couple?).map (fun files =>
            Comparison.differences request.sensitivity (place.merged [files.1])
              (place.merged [files.2])) ∧
        filesOpened (place.diffExpanded request).transcript.log =
          (pairs.filterMap Aligned.couple?).flatMap (fun files => [files.1, files.2]) ∧
        ∀ pair ∈ pairs, ∀ line, aloneLine? pair = some line →
          HasLine (place.diffExpanded request).transcript.output line) := by
  obtain ⟨hold, hnew⟩ := hdirectories
  obtain ⟨pairs, hpairs, hsnapshots⟩ :=
    PackageFile.exists_pairDirectories_of_isDirectory hold hnew
  refine ⟨pairs, hpairs, ?_, fun hextra => ?_⟩
  · unfold Succeeds
    simp [hold, hnew, hpairs]
  · rw [diffExpanded_of_directories hold hnew hpairs hextra]
    refine ⟨?_, place.filesOpened_diffPairs request true hsnapshots, fun pair hpair line hline => ?_⟩
    · rw [comparisonResults_diffPairs, comparisons, List.map_map]
      exact List.map_congr_left fun files _ => place.value_diffFiles request _ _
    · have hprinted := place.hasLine_diffPairs request true hpair hline
      rw [if_pos rfl, String.empty_append] at hprinted
      exact hprinted

end Workplace

end CommandLine

end ActivityCatalogue
