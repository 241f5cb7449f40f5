import ActivityCatalogue.CommandLine.Run
import ActivityCatalogue.Proofs.Filling
import ActivityCatalogue.Proofs.History

/-!
# Loading files

Loading a list of files is one attempt for each of them, in order.  An attempt reads
nothing but the file tree, so what it gives does not depend on the files before it: the
snapshot of the file, or one fault.  The catalogue is filled with the snapshots
(`value_load`), the faults are complained of (`complaints_load`), and nothing is written
otherwise (`output_load`).
-/

namespace ActivityCatalogue

/-- The call that brings the classes of a snapshot into a catalogue. -/
def Snapshot.filling (snapshot : Snapshot) : Filling := .populate (.inMemory snapshot.modules)

theorem Filling.reachable_fill {catalogue : Catalogue} (hreach : catalogue.Reachable)
    (call : Filling) : (call.fill catalogue).Reachable := by
  cases call with
  | register package declaration => exact hreach.register package declaration
  | registerModule module => exact hreach.registerClasses module.name module.classes
  | populate provider => exact hreach.populate provider

theorem Catalogue.reachable_filled (roots : NameSet) (calls : List Filling) :
    (filled roots calls).Reachable := by
  unfold filled
  refine List.foldlRecOn calls _ (.empty roots) fun catalogue hreach call _ => ?_
  exact call.reachable_fill hreach

namespace CommandLine

namespace Workplace

variable {place : Workplace} {path : String} {paths : List String} {catalogue : Catalogue}

/-! ## One file -/

/-- What loading a path gives: its snapshot, or the fault that is complained of. -/
def attempt (place : Workplace) (path : String) : Except Fault Snapshot :=
  if PackageFile.isSnapshot path then
    (Snapshot.load place.tree path).mapError (·.duringOperation Catalogue.populateOperation)
  else .error (.unsupportedFile path)

/-- A path loads if it is named as a snapshot file and its file holds a snapshot. -/
def Loads (place : Workplace) (path : String) : Prop :=
  PackageFile.isSnapshot path = true ∧ ∃ snapshot, Snapshot.load place.tree path = .ok snapshot

/-- The snapshot of a path, if it loads. -/
def snapshot? (place : Workplace) (path : String) : Option Snapshot :=
  (place.attempt path).toOption

/-- The fault of a path, unless it loads. -/
def fault? (place : Workplace) (path : String) : Option Fault :=
  match place.attempt path with
  | .ok _ => none
  | .error fault => some fault

theorem attempt_of_not_isSnapshot (hname : PackageFile.isSnapshot path = false) :
    place.attempt path = .error (.unsupportedFile path) := by
  simp [attempt, hname]

theorem attempt_of_isSnapshot (hname : PackageFile.isSnapshot path = true) :
    place.attempt path = (Snapshot.load place.tree path).mapError
      (·.duringOperation Catalogue.populateOperation) := by
  simp [attempt, hname]

theorem fault?_eq_none_iff : place.fault? path = none ↔ place.Loads path := by
  unfold fault? Loads
  by_cases hname : PackageFile.isSnapshot path = true
  · rw [attempt_of_isSnapshot hname]
    cases hload : Snapshot.load place.tree path with
    | ok snapshot => simp [hname, Except.mapError]
    | error fault => simp [Except.mapError]
  · rw [attempt_of_not_isSnapshot (by simpa using hname)]
    simp [hname]

/-- **One file.**  Its snapshot fills the catalogue, or the catalogue stays as it is and
one fault is complained of. -/
theorem addFile_spec (place : Workplace) (catalogue : Catalogue) (path : String) :
    (place.addFile catalogue path).value =
        ((place.snapshot? path).toList.map Snapshot.filling).foldl Filling.fill catalogue ∧
      (place.addFile catalogue path).transcript.complaints = (place.fault? path).toList ∧
      (place.addFile catalogue path).transcript.output = "" := by
  unfold addFile snapshot? fault?
  by_cases hname : PackageFile.isSnapshot path = true
  · rw [attempt_of_isSnapshot hname, if_pos hname]
    cases hload : Snapshot.load place.tree path with
    | ok snapshot =>
        have hprovider : Snapshot.provider place.tree path = ⟨path, .ok snapshot.modules⟩ := by
          simp [Snapshot.provider, hload, Except.map]
        rw [hprovider]
        exact ⟨rfl, rfl, rfl⟩
    | error fault =>
        have hprovider : Snapshot.provider place.tree path = ⟨path, .error fault⟩ := by
          simp [Snapshot.provider, hload, Except.map]
        rw [hprovider]
        exact ⟨rfl, rfl, rfl⟩
  · rw [attempt_of_not_isSnapshot (by simpa using hname), if_neg hname]
    exact ⟨rfl, rfl, rfl⟩

/-! ## Several files -/

/-- The snapshots of the paths that load, in order. -/
def snapshots (place : Workplace) (paths : List String) : List Snapshot :=
  paths.filterMap place.snapshot?

/-- The faults of the paths that do not load, in order. -/
def faults (place : Workplace) (paths : List String) : List Fault :=
  paths.filterMap place.fault?

/-- The catalogue of all that the paths have to offer. -/
def merged (place : Workplace) (paths : List String) : Catalogue :=
  Catalogue.filled place.settings.roots ((place.snapshots paths).map Snapshot.filling)

theorem snapshots_cons (place : Workplace) (path : String) (rest : List String) :
    place.snapshots (path :: rest) = (place.snapshot? path).toList ++ place.snapshots rest := by
  cases hsnapshot : place.snapshot? path with
  | none => simp [snapshots, hsnapshot]
  | some snapshot => simp [snapshots, hsnapshot]

theorem faults_cons (place : Workplace) (path : String) (rest : List String) :
    place.faults (path :: rest) = (place.fault? path).toList ++ place.faults rest := by
  cases hfault : place.fault? path with
  | none => simp [faults, hfault]
  | some fault => simp [faults, hfault]

theorem faults_eq_nil_iff : place.faults paths = [] ↔ ∀ path ∈ paths, place.Loads path := by
  unfold faults
  simp only [List.filterMap_eq_nil_iff, fault?_eq_none_iff]

/-- **Several files**, by induction on their list. -/
theorem addFiles_spec (place : Workplace) (catalogue : Catalogue) (paths : List String) :
    (place.addFiles catalogue paths).value =
        ((place.snapshots paths).map Snapshot.filling).foldl Filling.fill catalogue ∧
      (place.addFiles catalogue paths).transcript.complaints = place.faults paths ∧
      (place.addFiles catalogue paths).transcript.output = "" := by
  induction paths generalizing catalogue with
  | nil => exact ⟨rfl, rfl, rfl⟩
  | cons path rest ih =>
      obtain ⟨hvalue, hcomplaints, houtput⟩ := place.addFile_spec catalogue path
      obtain ⟨hrest, hrestComplaints, hrestOutput⟩ := ih (place.addFile catalogue path).value
      refine ⟨?_, ?_, ?_⟩
      · simp [addFiles, snapshots_cons, List.foldl_append, ← hvalue, hrest]
      · simp [addFiles, faults_cons, hcomplaints, hrestComplaints]
      · simp [addFiles, houtput, hrestOutput]

theorem value_load (place : Workplace) (paths : List String) :
    (place.load paths).value = place.merged paths :=
  (place.addFiles_spec (.ofSettings place.settings) paths).1

theorem complaints_load (place : Workplace) (paths : List String) :
    (place.load paths).transcript.complaints = place.faults paths :=
  (place.addFiles_spec (.ofSettings place.settings) paths).2.1

theorem output_load (place : Workplace) (paths : List String) :
    (place.load paths).transcript.output = "" :=
  (place.addFiles_spec (.ofSettings place.settings) paths).2.2

theorem reachable_merged (place : Workplace) (paths : List String) :
    (place.merged paths).Reachable :=
  Catalogue.reachable_filled _ _

end Workplace

end CommandLine

end ActivityCatalogue
