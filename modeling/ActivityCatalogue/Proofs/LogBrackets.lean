import ActivityCatalogue.CommandLine.Run
import Mathlib.Data.List.Basic

/-!
# Operations in the log

Most entries of a log only tell something.  Leaving them out, what remains of an
operation is its start and its end, with the operations inside of it between them
(`Log.brackets`).

Filling a catalogue and comparing two have nothing inside: discarded duplicates, skipped
classes and types that cannot be simplified are entries that only tell
(`brackets_populate`, `Comparison.brackets_log`).
-/

namespace ActivityCatalogue

namespace Log

/-- The entries that start or end an operation. -/
def brackets (log : List Entry) : List Entry := log.filter fun entry => entry.boundary.isSome

@[simp] theorem brackets_nil : brackets [] = [] := rfl

@[simp] theorem brackets_append (first second : List Entry) :
    brackets (first ++ second) = brackets first ++ brackets second :=
  List.filter_append ..

@[simp] theorem brackets_started_cons (source : Source) (operation : String)
    (details : List (String × Value)) (rest : List Entry) :
    brackets (started source operation details :: rest) =
      started source operation details :: brackets rest :=
  rfl

@[simp] theorem brackets_finished_cons (source : Source) (operation : String)
    (details : List (String × Value)) (rest : List Entry) :
    brackets (finished source operation details :: rest) =
      finished source operation details :: brackets rest :=
  rfl

@[simp] theorem brackets_noted_cons (level : Level) (source : Source) (message : String)
    (details : List (String × Value)) (rest : List Entry) :
    brackets (noted level source message details :: rest) = brackets rest :=
  rfl

/-- What is read off the entries that start or end an operation can be read off the
brackets. -/
theorem filterMap_brackets {α : Type} {read? : Entry → Option α}
    (hread : ∀ entry, entry.boundary = none → read? entry = none) (log : List Entry) :
    (brackets log).filterMap read? = log.filterMap read? := by
  unfold brackets
  rw [List.filterMap_filter]
  refine List.filterMap_congr fun entry _ => ?_
  cases hboundary : entry.boundary with
  | none => simp [hread entry hboundary]
  | some boundary => simp

theorem brackets_flatMap_eq_nil {α : Type} {told : α → List Entry}
    (hplain : ∀ place, brackets (told place) = []) (places : List α) :
    brackets (places.flatMap told) = [] := by
  induction places with
  | nil => rfl
  | cons place rest ih => rw [List.flatMap_cons, brackets_append, hplain, ih, List.append_nil]

end Log

open Log (brackets)

/-! ## Filling a catalogue -/

namespace Catalogue

theorem brackets_registrationLog (catalogue : Catalogue) (package : String)
    (declaration : ClassDeclaration) :
    brackets (catalogue.registrationLog package declaration) = [] := by
  unfold registrationLog
  split
  · rfl
  · rfl

theorem brackets_registerClasses (catalogue : Catalogue) (package : String)
    (declarations : List ClassDeclaration) :
    brackets (catalogue.registerClasses package declarations).log = [] := by
  induction declarations generalizing catalogue with
  | nil => rfl
  | cons declaration rest ih =>
      simp [registerClasses, brackets_registrationLog, ih]

theorem brackets_registerModules (catalogue : Catalogue) (modules : List ModuleDeclaration) :
    brackets (catalogue.registerModules modules).log = [] := by
  induction modules generalizing catalogue with
  | nil => rfl
  | cons module rest ih =>
      simp [registerModules, registerModule, brackets_registerClasses, ih]

/-- The entry with which filling a catalogue ends. -/
def populationEnd (origin : String) : Except Fault PopulationReport → Log.Entry
  | .ok report => Log.finished .catalogue populateOperation
      [("path", .text origin), ("class_count", .count report.registered)]
  | .error fault => Log.failed .catalogue populateOperation fault [("path", .text origin)]

/-- Filling a catalogue starts and ends, and the end tells what came of it. -/
theorem brackets_populate (catalogue : Catalogue) (provider : Provider) :
    brackets (catalogue.populate provider).log =
      [Log.started .catalogue populateOperation [("path", .text provider.origin)],
        populationEnd provider.origin (catalogue.populate provider).value.2] := by
  obtain ⟨origin, modules⟩ := provider
  cases modules with
  | error fault => rfl
  | ok modules => simp [populate, populationEnd, brackets_registerModules]

end Catalogue

/-! ## Comparing -/

namespace Simplifier

theorem brackets_warnings (text : String) : brackets (warnings text) = [] := by
  unfold warnings
  split
  · rfl
  · rfl

end Simplifier

namespace ReportStyle

theorem brackets_warnings (style : ReportStyle) (event : Comparison.Event) :
    brackets (style.warnings event) = [] := by
  unfold warnings
  split
  · exact Log.brackets_flatMap_eq_nil (fun property => Simplifier.brackets_warnings _) _
  · rfl
  · rfl

end ReportStyle

namespace Comparison

/-- Comparing starts and ends, and the end tells the number of differences. -/
theorem brackets_log (sensitivity : Sensitivity) (first second : Catalogue)
    {heard : Event → List Log.Entry} (hheard : ∀ event, brackets (heard event) = []) :
    brackets (log sensitivity first second heard) =
      [Log.started .comparison operation
          [("first_classes", .count first.size), ("second_classes", .count second.size)],
        Log.finished .comparison operation
          [("differences", .count (differences sensitivity first second))]] := by
  have hsteps : brackets ((steps first second).flatMap
      (Step.log sensitivity first second heard)) = [] := by
    refine Log.brackets_flatMap_eq_nil (fun step => ?_) _
    cases step with
    | skip entry => rfl
    | reach place => exact Log.brackets_flatMap_eq_nil hheard _
  simp [log, hsteps]

end Comparison

/-! ## What else is logged -/

theorem FileTree.brackets_expansion (tree : FileTree) (path : String) :
    brackets (tree.expansion path).log = [] := by
  unfold expansion
  split
  · rfl
  · split
    · rfl
    · split
      · rfl
      · rfl

theorem FileTree.brackets_expandSingle (tree : FileTree) (path : String) :
    brackets (tree.expandSingle path).log = [] := by
  unfold expandSingle
  rw [Logged.log_bind, Log.brackets_append, brackets_expansion, List.nil_append]
  split
  · rfl
  · rfl
  · rfl

theorem Settings.brackets_loadOrCreate (tree : FileTree) (path : String) :
    brackets (loadOrCreate tree path).log = [] := by
  unfold loadOrCreate
  split
  · split
    · rfl
    · rfl
  · cases hfault : (save tree path {}).2 with
    | none => simp [hfault]
    | some fault => simp [hfault, trouble]

/-! ## Commands -/

namespace CommandLine

namespace Workplace

theorem brackets_addFile (place : Workplace) (catalogue : Catalogue) (path : String) :
    brackets (place.addFile catalogue path).transcript.log =
      if PackageFile.isSnapshot path then
        [Log.started .catalogue Catalogue.populateOperation [("path", .text path)],
          Catalogue.populationEnd path
            (catalogue.populate (Snapshot.provider place.tree path)).value.2]
      else [] := by
  unfold addFile
  split
  · have hpopulate := catalogue.brackets_populate (Snapshot.provider place.tree path)
    rw [Session.transcript_bind, Transcript.log_append, Log.brackets_append,
      Session.transcript_ofLogged, hpopulate]
    -- whether the file could be read or not, nothing is logged after that
    split
    split
    · rfl
    · rfl
  · rfl

/-- The entries between which everything of a comparison lies. -/
theorem brackets_sayComparison (place : Workplace) (request : DiffRequest) (old new : List String)
    (first second : Catalogue) :
    brackets (place.sayComparison request old new first second).transcript.log =
      [Log.started .comparison Comparison.operation
          [("first_classes", .count first.size), ("second_classes", .count second.size)],
        Log.finished .comparison Comparison.operation
          [("differences", .count (Comparison.differences request.sensitivity first second))]] := by
  unfold sayComparison
  split
  · have hsilent : ∀ event : Comparison.Event, brackets ((fun _ => []) event) = [] := fun _ => rfl
    simp [Comparison.brackets_log _ first second hsilent]
  · simp [Comparison.brackets_log _ first second (ReportStyle.brackets_warnings _)]

/-- Comparing files encloses what loading them brings and one comparison. -/
theorem brackets_diffFiles (place : Workplace) (request : DiffRequest) (old : String)
    (new : List String) :
    let first := (place.load [old]).value
    let second := (place.load new).value
    brackets (place.diffFiles request old new).transcript.log =
      Log.started .diffCommand diffOperation [("path", .text old)] ::
        (brackets (place.load [old]).transcript.log ++ brackets (place.load new).transcript.log ++
          [Log.started .comparison Comparison.operation
              [("first_classes", .count first.size), ("second_classes", .count second.size)],
            Log.finished .comparison Comparison.operation
              [("differences", .count (Comparison.differences request.sensitivity first second))],
            Log.finished .diffCommand diffOperation
              [("differences", .count (Comparison.differences request.sensitivity first second))]]) := by
  intro first second
  simp [diffFiles, brackets_sayComparison, first, second]

theorem brackets_expanded (place : Workplace) (request : DiffRequest) :
    brackets (place.expanded request).transcript.log = [] := by
  unfold expanded
  cases request.extra with
  | none => simp [FileTree.brackets_expandSingle]
  | some extra => simp [FileTree.brackets_expandSingle]

end Workplace

end CommandLine

end ActivityCatalogue
