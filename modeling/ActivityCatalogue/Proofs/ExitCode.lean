import ActivityCatalogue.Proofs.DiffCommand

/-!
# The exit code of a diff

A run reads its settings first, which may change the tree but is neither a difference nor
complained of, and then carries out its command there.  So the exit code is zero exactly
if the diff succeeds for the expanded paths (`exitCode_run_diff_iff`).

It can be told from outside as well.  Every complaint starts with a line that says so,
and without complaints there is none (`printsError_iff`); and the log holds the result of
each comparison, of which the run has counted the sum (`value_diffExpanded`).
-/

namespace ActivityCatalogue

namespace CommandLine

open Log (comparisonResults filesOpened)

/-! ## Complaints are seen -/

/-- Some line about what was complained of says that it is an error. -/
def Outcome.PrintsError (outcome : Outcome) : Prop :=
  ∃ line ∈ Text.pieces '\n' outcome.errorText, "ERROR:".toList <+: line.toList

/-- Up to the first separator, a text belongs to the first piece. -/
theorem fst_cut_append {separator : Char} {lead : List Char} (hlead : separator ∉ lead)
    (rest : List Char) :
    (Text.cut separator (lead ++ rest)).1 = lead ++ (Text.cut separator rest).1 := by
  induction lead with
  | nil => rfl
  | cons c lead ih =>
      have hc : c ≠ separator := fun heq => hlead (heq ▸ List.mem_cons_self)
      have htail : separator ∉ lead := fun hmem => hlead (List.mem_cons_of_mem c hmem)
      rw [List.cons_append, Text.cut_cons, if_neg hc, ih htail, List.cons_append]

/-- The text of a complaint starts its first line with the mark of an error. -/
theorem exists_errorText_cons (fault : Fault) (rest : List Fault) :
    ∃ text, String.join ((fault :: rest).map complaint) = "ERROR: " ++ text := by
  rw [List.map_cons, String.join_cons, complaint]
  exact ⟨_, by simp only [String.append_assoc]; rfl⟩

theorem printsError_iff {outcome : Outcome} :
    outcome.PrintsError ↔ outcome.transcript.complaints ≠ [] := by
  unfold Outcome.PrintsError Outcome.errorText
  cases hcomplaints : outcome.transcript.complaints with
  | nil => simp [Text.pieces, Text.cut_nil]
  | cons fault rest =>
      refine iff_of_true ?_ (List.cons_ne_nil fault rest)
      obtain ⟨text, htext⟩ := exists_errorText_cons fault rest
      have hnoEnd : '\n' ∉ "ERROR: ".toList := by decide
      have hmark : "ERROR:".toList <+: "ERROR: ".toList := by decide
      have hpiece : (Text.cut '\n' ("ERROR: " ++ text).toList).1 =
          "ERROR: ".toList ++ (Text.cut '\n' text.toList).1 := by
        rw [String.toList_append, fst_cut_append hnoEnd]
      have hfirst : (String.ofList (Text.cut '\n' ("ERROR: " ++ text).toList).1).toList =
          "ERROR: ".toList ++ (Text.cut '\n' text.toList).1 := by
        rw [← hpiece]
        exact String.toList_ofList
      rw [htext]
      refine ⟨_, List.mem_cons_self, ?_⟩
      rw [hfirst]
      exact hmark.trans (List.prefix_append _ _)

/-! ## Exit codes -/

theorem exitCode_eq_zero_or_one (outcome : Outcome) :
    outcome.exitCode = 0 ∨ outcome.exitCode = 1 := by
  unfold Outcome.exitCode
  split
  · exact Or.inl rfl
  · exact Or.inr rfl

/-- There are only two exit codes, so it is enough to know when they are zero. -/
theorem exitCode_eq_of_iff {first second : Outcome}
    (hsame : first.exitCode = 0 ↔ second.exitCode = 0) : first.exitCode = second.exitCode := by
  have hfirst := exitCode_eq_zero_or_one first
  have hsecond := exitCode_eq_zero_or_one second
  omega

theorem exitCode_eq_zero_iff {outcome : Outcome} :
    outcome.exitCode = 0 ↔ outcome.differences = 0 ∧ outcome.transcript.complaints = [] := by
  unfold Outcome.exitCode
  split
  · next hends => simp [hends]
  · next hends => simp [hends]

/-! ## The session of a run -/

/-- Where a run carries out its command: the tree and the settings after these are read. -/
def workplaceOf (tree : FileTree) (settingsPath : String) : Workplace :=
  let loaded := (Settings.loadOrCreate tree settingsPath).value
  ⟨loaded.2, loaded.1⟩

namespace Workplace

/-- What a diff counts is the sum of what its comparisons gave. -/
theorem value_diffExpanded (place : Workplace) (request : DiffRequest) :
    (place.diffExpanded request).value =
      (comparisonResults (place.diffExpanded request).transcript.log).sum := by
  unfold diffExpanded
  split
  · split
    · rfl
    · unfold diffDirectories
      split
      · rfl
      · next pairs _ =>
          rw [comparisonResults_diffPairs]
          exact (place.diffPairs_spec request true pairs).1
  · rw [comparisonResults_diffFiles, List.sum_singleton]

/-- Expanding the paths is neither seen nor counted nor complained of. -/
theorem diff_spec (place : Workplace) (request : DiffRequest) :
    let session := place.diff request
    let given := place.diffExpanded (place.expandedRequest request)
    session.value = given.value ∧
      session.transcript.output = given.transcript.output ∧
      session.transcript.complaints = given.transcript.complaints ∧
      Log.brackets session.transcript.log = Log.brackets given.transcript.log := by
  rw [diff_eq]
  simp [value_expanded, output_expanded, complaints_expanded, brackets_expanded]

end Workplace

/-- The outcome of a run is what its session leaves behind; of the settings file the log
tells before that, but of no operation. -/
theorem run_diff_spec (settingsPath : Option String) (debug : Bool) (request : DiffRequest)
    (tree : FileTree) (defaultPath : String) :
    let outcome := Invocation.run ⟨settingsPath, debug, .diff request⟩ tree defaultPath
    let place := workplaceOf tree (settingsPath.getD defaultPath)
    let given := place.diffExpanded (place.expandedRequest request)
    outcome.differences = given.value ∧
      outcome.transcript.output = given.transcript.output ∧
      outcome.transcript.complaints = given.transcript.complaints ∧
      comparisonResults outcome.transcript.log = comparisonResults given.transcript.log ∧
      filesOpened outcome.transcript.log = filesOpened given.transcript.log := by
  intro outcome place given
  obtain ⟨hvalue, houtput, hcomplaints, hlog⟩ := place.diff_spec request
  have hbrackets : Log.brackets outcome.transcript.log = Log.brackets given.transcript.log := by
    have hsettings := Settings.brackets_loadOrCreate tree (settingsPath.getD defaultPath)
    have hrun : outcome.transcript.log =
        (Settings.loadOrCreate tree (settingsPath.getD defaultPath)).log ++
          (place.diff request).transcript.log := rfl
    rw [hrun, Log.brackets_append, hsettings, List.nil_append, hlog]
  refine ⟨hvalue, houtput, hcomplaints, ?_, ?_⟩
  · rw [← Log.comparisonResults_brackets, hbrackets, Log.comparisonResults_brackets]
  · rw [← Log.filesOpened_brackets, hbrackets, Log.filesOpened_brackets]

theorem exitCode_run_diff_iff (settingsPath : Option String) (debug : Bool) (request : DiffRequest)
    (tree : FileTree) (defaultPath : String) :
    let outcome := Invocation.run ⟨settingsPath, debug, .diff request⟩ tree defaultPath
    let place := workplaceOf tree (settingsPath.getD defaultPath)
    outcome.exitCode = 0 ↔ place.Succeeds (place.expandedRequest request) := by
  intro outcome place
  obtain ⟨hvalue, -, hcomplaints, -⟩ := run_diff_spec settingsPath debug request tree defaultPath
  rw [← Workplace.endsWell_diffExpanded_iff, exitCode_eq_zero_iff, hvalue, hcomplaints]
  rfl

/-- **Main statement.**  A run of a diff command exits with zero or one, and with zero
exactly if no line says that something is an error and every comparison gave zero.

* For files (anything but two directories): if all of them load, after the expansion of
  their paths, and both sides show the same.  There is one comparison, of what can be
  loaded.
* For two directories: if no third path is given and each pair of files passes for
  itself.  Only these are opened and compared; any other file is named on a line of its
  own.

How the result is written makes no difference, nor which types are shown. -/
theorem diff_exitCode (settingsPath : Option String) (debug : Bool) (request : DiffRequest)
    (tree : FileTree) (defaultPath : String) :
    let run := fun request : DiffRequest =>
      Invocation.run ⟨settingsPath, debug, .diff request⟩ tree defaultPath
    let outcome := run request
    let place := workplaceOf tree (settingsPath.getD defaultPath)
    let given := place.expandedRequest request
    let results := comparisonResults outcome.transcript.log
    (outcome.exitCode = 0 ∨ outcome.exitCode = 1) ∧
    (outcome.exitCode = 0 ↔
      ¬ outcome.PrintsError ∧ ∀ differences ∈ results, differences = 0) ∧
    (¬ (place.tree.isDirectory given.old = true ∧ place.tree.isDirectory given.new = true) →
      (outcome.exitCode = 0 ↔
        place.Passes given.sensitivity given.old (given.new :: given.extra.toList)) ∧
      results = [Comparison.differences given.sensitivity (place.merged [given.old])
        (place.merged (given.new :: given.extra.toList))]) ∧
    (place.tree.isDirectory given.old = true ∧ place.tree.isDirectory given.new = true →
      ∃ pairs, PackageFile.pairDirectories place.tree given.old given.new = .ok pairs ∧
        (outcome.exitCode = 0 ↔ given.extra = none ∧
          ∀ l r, .both l r ∈ pairs → place.Passes given.sensitivity l [r]) ∧
        (given.extra = none →
          results = (pairs.filterMap Aligned.couple?).map (fun files =>
            Comparison.differences given.sensitivity (place.merged [files.1])
              (place.merged [files.2])) ∧
          filesOpened outcome.transcript.log =
            (pairs.filterMap Aligned.couple?).flatMap (fun files => [files.1, files.2]) ∧
          ∀ pair ∈ pairs, ∀ line, aloneLine? pair = some line →
            HasLine outcome.transcript.output line)) ∧
    (∀ asJson, (run { request with asJson }).exitCode = outcome.exitCode) ∧
    (run { request with sensitivity := .typedLoose }).exitCode =
      (run { request with sensitivity := .typedStrict }).exitCode := by
  intro run outcome place given results
  obtain ⟨hvalue, houtput, hcomplaints, hresults, hopened⟩ :=
    run_diff_spec settingsPath debug request tree defaultPath
  have hends : ∀ other : DiffRequest, (run other).exitCode = 0 ↔
      place.Succeeds (place.expandedRequest other) :=
    fun other => exitCode_run_diff_iff settingsPath debug other tree defaultPath
  refine ⟨exitCode_eq_zero_or_one outcome, ?_, fun hfiles => ?_, fun hdirectories => ?_,
    fun asJson => ?_, ?_⟩
  · rw [exitCode_eq_zero_iff, printsError_iff, not_not, hvalue, place.value_diffExpanded,
      List.sum_eq_zero_iff, and_comm, ← hresults]
  · obtain ⟨hpasses, hone⟩ := place.diffExpanded_files_spec given hfiles
    exact ⟨(hends request).trans hpasses, hresults.trans hone⟩
  · obtain ⟨pairs, hpairs, hpasses, hwithout⟩ :=
      place.diffExpanded_directories_spec given hdirectories
    refine ⟨pairs, hpairs, (hends request).trans hpasses, fun hextra => ?_⟩
    obtain ⟨heach, hfiles, hlines⟩ := hwithout hextra
    refine ⟨hresults.trans heach, hopened.trans hfiles, fun pair hpair line hline => ?_⟩
    rw [houtput]
    exact hlines pair hpair line hline
  · apply exitCode_eq_of_iff
    calc (run { request with asJson }).exitCode = 0
        ↔ place.Succeeds (place.expandedRequest { request with asJson }) :=
          hends { request with asJson }
      _ ↔ place.Succeeds given := place.succeeds_asJson_iff given asJson
      _ ↔ outcome.exitCode = 0 := (hends request).symm
  · apply exitCode_eq_of_iff
    calc (run { request with sensitivity := .typedLoose }).exitCode = 0
        ↔ place.Succeeds (place.expandedRequest { request with sensitivity := .typedLoose }) :=
          hends { request with sensitivity := .typedLoose }
      _ ↔ place.Succeeds (place.expandedRequest { request with sensitivity := .typedStrict }) :=
          place.succeeds_typedLoose_iff given
      _ ↔ (run { request with sensitivity := .typedStrict }).exitCode = 0 :=
          (hends { request with sensitivity := .typedStrict }).symm

end CommandLine

end ActivityCatalogue
