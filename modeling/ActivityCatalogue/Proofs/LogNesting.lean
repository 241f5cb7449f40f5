import ActivityCatalogue.Proofs.Lineage
import ActivityCatalogue.Proofs.LogBrackets

/-!
# Operations that nest

A log is read with the operations in mind that are open.  A start opens one more, and an
end has to name the one that was opened last, which it closes.  A log nests if it can be
read so from beginning to end and leaves nothing open (`Log.Nests`).

* **Stretches.**  What can be read whatever is open, and leaves that open, may stand
  anywhere (`Log.IsClosed`): one stretch behind the other, or between a start and an end
  of one operation.
* **Operations.**  Filling a catalogue and comparing two make such stretches, whose end
  tells what the operation gave (`Operation.isTold`).
* **Calls.**  Any number of catalogues may be filled and compared one after the other; the
  log of all calls has one such stretch for each (`performAll_spec`).
-/

namespace ActivityCatalogue

namespace Log

/-! ## Open operations -/

/-- The operations that are open after an entry, the last one first, if that entry may stand
there. -/
def Entry.openAfter? (opened : List String) (entry : Entry) : Option (List String) :=
  match entry.boundary with
  | none => some opened
  | some (operation, .start) => some (operation :: opened)
  | some (operation, .finish) | some (operation, .failure) =>
    match opened with
    | [] => none
    | latest :: others => if operation = latest then some others else none

/-- The operations that are open after a log. -/
def openAfter? (opened : List String) (log : List Entry) : Option (List String) :=
  log.foldlM Entry.openAfter? opened

/-- Every end closes the operation that was opened last, and in the end nothing is open. -/
def Nests (log : List Entry) : Prop := openAfter? [] log = some []

instance : DecidablePred Nests := fun log =>
  inferInstanceAs (Decidable (openAfter? [] log = some []))

theorem openAfter?_cons (opened : List String) (entry : Entry) (rest : List Entry) :
    openAfter? opened (entry :: rest) =
      (entry.openAfter? opened).bind fun next => openAfter? next rest :=
  List.foldlM_cons

theorem openAfter?_append (opened : List String) (log later : List Entry) :
    openAfter? opened (log ++ later) =
      (openAfter? opened log).bind fun next => openAfter? next later :=
  List.foldlM_append

/-- Entries that only tell something are passed over. -/
theorem openAfter?_brackets (opened : List String) (log : List Entry) :
    openAfter? opened (brackets log) = openAfter? opened log := by
  induction log generalizing opened with
  | nil => rfl
  | cons entry rest ih =>
      cases hboundary : entry.boundary with
      | none =>
          have hpassed : brackets (entry :: rest) = brackets rest :=
            List.filter_cons_of_neg (by simp [hboundary])
          have hsame : entry.openAfter? opened = some opened := by
            simp [Entry.openAfter?, hboundary]
          rw [hpassed, openAfter?_cons, hsame, Option.bind_some, ih]
      | some boundary =>
          have hkept : brackets (entry :: rest) = entry :: brackets rest :=
            List.filter_cons_of_pos (by simp [hboundary])
          rw [hkept, openAfter?_cons, openAfter?_cons]
          simp only [ih]

theorem nests_brackets_iff {log : List Entry} : Nests (brackets log) ↔ Nests log := by
  rw [Nests, openAfter?_brackets, Nests]

/-! ## Stretches that close what they open -/

/-- Whatever is open before the log is open after it. -/
def IsClosed (log : List Entry) : Prop := ∀ opened, openAfter? opened log = some opened

namespace IsClosed

variable {log later : List Entry}

theorem nests (hclosed : IsClosed log) : Nests log := hclosed []

theorem nil : IsClosed [] := fun _ => rfl

theorem append (hlog : IsClosed log) (hlater : IsClosed later) : IsClosed (log ++ later) := by
  intro opened
  rw [openAfter?_append, hlog opened, Option.bind_some, hlater opened]

theorem flatMap {α : Type} {told : α → List Entry} {places : List α}
    (htold : ∀ place ∈ places, IsClosed (told place)) : IsClosed (places.flatMap told) := by
  induction places with
  | nil => exact nil
  | cons place rest ih =>
      obtain ⟨hplace, hrest⟩ := List.forall_mem_cons.mp htold
      rw [List.flatMap_cons]
      exact hplace.append (ih hrest)

/-- An operation may enclose what closes all that it opens. -/
theorem enclose {inside : List Entry} {start ending : Entry} {operation : String} {phase : Phase}
    (hinside : IsClosed inside) (hstart : start.boundary = some (operation, .start))
    (hending : ending.boundary = some (operation, phase)) (hphase : phase ≠ .start) :
    IsClosed (start :: (inside ++ [ending])) := by
  intro opened
  have hopens : start.openAfter? opened = some (operation :: opened) := by
    simp [Entry.openAfter?, hstart]
  have hcloses : ending.openAfter? (operation :: opened) = some opened := by
    cases phase with
    | start => exact absurd rfl hphase
    | finish => simp [Entry.openAfter?, hending]
    | failure => simp [Entry.openAfter?, hending]
  calc openAfter? opened (start :: (inside ++ [ending]))
      = openAfter? (operation :: opened) (inside ++ [ending]) := by
        rw [openAfter?_cons, hopens, Option.bind_some]
    _ = openAfter? (operation :: opened) [ending] := by
        rw [openAfter?_append, hinside, Option.bind_some]
    _ = some opened := by
        rw [openAfter?_cons, hcloses]
        rfl

end IsClosed

/-- A failure closes what was opened last, and what is around it stays open. -/
example :
    let opening := started .diffCommand "diff_files" []
    let trying := started .catalogue Catalogue.populateOperation []
    let failing := failed .catalogue Catalogue.populateOperation (.unsupportedFile "notes.txt") []
    let closing := finished .diffCommand "diff_files" []
    Nests [opening, trying, failing, closing] ∧ ¬ Nests [opening, trying, closing, failing] ∧
      ¬ Nests [opening, trying, failing] := by
  decide

end Log

open Log (brackets IsClosed)

/-! ## Operations -/

/-- An operation on catalogues as they are when it starts. -/
inductive Operation where
  | population (catalogue : Catalogue) (provider : Catalogue.Provider)
  | comparison (sensitivity : Comparison.Sensitivity) (first second : Catalogue)

namespace Operation

/-- What an operation gives to whoever called for it. -/
inductive Result where
  | populated (outcome : Except Fault PopulationReport)
  | compared (differences : Nat)

def result : Operation → Result
  | population catalogue provider => .populated (catalogue.populate provider).value.2
  | comparison sensitivity first second =>
    .compared (Comparison.differences sensitivity first second)

/-- Two entries start and end an operation, and the second one tells what it gave: how many
classes were registered, what went wrong, or how many differences there are. -/
def Result.IsTold (start ending : Log.Entry) : Result → Prop
  | populated (.ok report) =>
    start.boundary = some (Catalogue.populateOperation, .start) ∧
      ending.boundary = some (Catalogue.populateOperation, .finish) ∧
      ending.details.lookup "class_count" = some (.count report.registered)
  | populated (.error fault) =>
    start.boundary = some (Catalogue.populateOperation, .start) ∧
      ending.boundary = some (Catalogue.populateOperation, .failure) ∧
      ending.details.lookup "err_kind" = some (.text fault.kind.label) ∧
      ending.details.lookup "err_code" = some (.text fault.code) ∧
      ending.details.lookup "err_message" = some (.text fault.message)
  | compared differences =>
    start.boundary = some (Comparison.operation, .start) ∧
      ending.boundary = some (Comparison.operation, .finish) ∧
      ending.details.lookup "differences" = some (.count differences)

/-- The entry with which an operation starts. -/
def start : Operation → Log.Entry
  | population _ provider => Log.started .catalogue Catalogue.populateOperation
      [("path", .text provider.origin)]
  | comparison _ first second => Log.started .comparison Comparison.operation
      [("first_classes", .count first.size), ("second_classes", .count second.size)]

/-- The entry with which it ends. -/
def ending : Operation → Log.Entry
  | population catalogue provider =>
    Catalogue.populationEnd provider.origin (catalogue.populate provider).value.2
  | comparison sensitivity first second => Log.finished .comparison Comparison.operation
      [("differences", .count (Comparison.differences sensitivity first second))]

/-- What the log shows of an operation. -/
def brackets (operation : Operation) : List Log.Entry := [operation.start, operation.ending]

theorem isTold (operation : Operation) :
    operation.result.IsTold operation.start operation.ending := by
  cases operation with
  | population catalogue provider =>
      simp only [result, start, ending]
      cases (catalogue.populate provider).value.2 with
      | ok report => exact ⟨rfl, rfl, rfl⟩
      | error fault => exact ⟨rfl, rfl, rfl, rfl, rfl⟩
  | comparison sensitivity first second => exact ⟨rfl, rfl, rfl⟩

/-- The name of an operation stands at its start and at its end. -/
theorem exists_boundaries (operation : Operation) : ∃ name phase,
    operation.start.boundary = some (name, .start) ∧
      operation.ending.boundary = some (name, phase) ∧ phase ≠ .start := by
  have htold := operation.isTold
  cases hresult : operation.result with
  | populated outcome =>
      rw [hresult] at htold
      cases outcome with
      | ok report => exact ⟨_, _, htold.1, htold.2.1, nofun⟩
      | error fault => exact ⟨_, _, htold.1, htold.2.1, nofun⟩
  | compared differences =>
      rw [hresult] at htold
      exact ⟨_, _, htold.1, htold.2.1, nofun⟩

theorem isClosed_brackets (operation : Operation) : IsClosed operation.brackets := by
  obtain ⟨name, phase, hstart, hending, hphase⟩ := operation.exists_boundaries
  exact IsClosed.nil.enclose hstart hending hphase

theorem isClosed_flatMap_brackets (operations : List Operation) :
    IsClosed (operations.flatMap brackets) :=
  IsClosed.flatMap fun operation _ => operation.isClosed_brackets

end Operation

/-! ## Calls, one after the other -/

/-- Whoever is told the events of a comparison, without starting operations of its own. -/
structure Comparison.Listener where
  /-- What the log tells of an event there. -/
  heard : Event → List Log.Entry
  plain : ∀ event, brackets (heard event) = []

/-- A listener that keeps records of the events. -/
def Comparison.Listener.records : Comparison.Listener := ⟨fun _ => [], fun _ => rfl⟩

/-- A listener that shows the events in a report. -/
def ReportStyle.listener (style : ReportStyle) : Comparison.Listener :=
  ⟨style.warnings, style.brackets_warnings⟩

namespace Catalogues

/-- A call that is logged as an operation, on catalogues by their names. -/
inductive Call where
  | populate (name : String) (provider : Catalogue.Provider)
  | compare (sensitivity : Comparison.Sensitivity) (first second : String)
      (listener : Comparison.Listener)

/-- The operation that a call asks for. -/
def Call.operation (catalogues : Catalogues) : Call → Operation
  | populate name provider => .population (catalogues name) provider
  | compare sensitivity first second _ =>
    .comparison sensitivity (catalogues first) (catalogues second)

/-- Carries out a call: what the catalogues are then, and what the call gives. -/
def perform (catalogues : Catalogues) : Call → Logged (Catalogues × Operation.Result)
  | .populate name provider => do
    let (filled, outcome) ← (catalogues name).populate provider
    return (Function.update catalogues name filled, .populated outcome)
  | .compare sensitivity first second listener => do
    Logged.write (Comparison.log sensitivity (catalogues first) (catalogues second) listener.heard)
    return (catalogues.act (.ask (.diff sensitivity first second)),
      .compared (Comparison.differences sensitivity (catalogues first) (catalogues second)))

/-- Carries out several calls in order. -/
def performAll (catalogues : Catalogues) : List Call → Logged (Catalogues × List Operation.Result)
  | [] => pure (catalogues, [])
  | call :: rest => do
    let (next, result) ← catalogues.perform call
    let (last, results) ← performAll next rest
    return (last, result :: results)

/-- The operations that calls ask for, on the catalogues as they have become by then. -/
def operations (catalogues : Catalogues) : List Call → List Operation
  | [] => []
  | call :: rest =>
    call.operation catalogues :: operations (catalogues.perform call).value.1 rest

/-- One call gives what its operation gives, and the log shows that operation alone. -/
theorem perform_spec (catalogues : Catalogues) (call : Call) :
    (catalogues.perform call).value.2 = (call.operation catalogues).result ∧
      brackets (catalogues.perform call).log = (call.operation catalogues).brackets := by
  cases call with
  | populate name provider =>
      refine ⟨rfl, ?_⟩
      have hpopulate := (catalogues name).brackets_populate provider
      rw [perform, Logged.log_bind, Log.brackets_append, hpopulate]
      rfl
  | compare sensitivity first second listener =>
      refine ⟨rfl, ?_⟩
      have hcompare := Comparison.brackets_log sensitivity (catalogues first) (catalogues second)
        listener.plain
      rw [perform, Logged.log_bind, Logged.log_write, Log.brackets_append, hcompare]
      rfl

/-- **All calls**, by induction on their list. -/
theorem performAll_spec (catalogues : Catalogues) (calls : List Call) :
    (catalogues.performAll calls).value.2 = (catalogues.operations calls).map Operation.result ∧
      brackets (catalogues.performAll calls).log =
        (catalogues.operations calls).flatMap Operation.brackets := by
  induction calls generalizing catalogues with
  | nil => exact ⟨rfl, rfl⟩
  | cons call rest ih =>
      obtain ⟨hresult, hlog⟩ := catalogues.perform_spec call
      obtain ⟨hresults, hlogs⟩ := ih (catalogues.perform call).value.1
      constructor
      · simp [performAll, operations, hresult, hresults]
      · simp [performAll, operations, hlog, hlogs]

/-- Catalogues are compared after one of them could not be filled. -/
example :
    (performAll (fun _ => .empty default)
      [.populate "old" ⟨"old.json", .error (.unsupportedFile "old.json")⟩,
        .compare .untyped "old" "new" .records,
        .compare .untyped "old" "new" (ReportStyle.listener ⟨.untyped, .ofNamespaces []⟩)]).log.map
          Log.Entry.phase =
      [some .start, some .failure, some .start, some .finish, some .start, some .finish] := by
  cbv

end Catalogues

end ActivityCatalogue
