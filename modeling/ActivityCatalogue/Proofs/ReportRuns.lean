import Mathlib.Data.List.SplitBy
import ActivityCatalogue.Proofs.ConsoleReport
import ActivityCatalogue.Proofs.PropertyComparison

/-!
# The console report of any events

A comparison tells its events class by class, but a report does not rely on that.  Whatever
events it is told, they fall into runs: neighbours belong to one run if they show properties
of one class, and a class that only one side has is a run of its own (`runs`).  For each run
the report writes a header and then the lines of its events, and it counts the class of the
run as modified if one of the events is a difference.

The report itself sees one event at a time.  What it remembers, the class of the last header
and whether that class is modified, is just what has to be known of the last run
(`Follows`).  The next event either continues that run or opens one (`runs_concat`,
`runs_concat_of_opens`), and in both cases the invariant is kept (`Follows.tell`).
-/

namespace ActivityCatalogue

open Comparison

/-! ## Runs -/

/-- An entry that goes on where the last piece of a list ends is added to that piece. -/
theorem splitBy_concat {α : Type*} {r : α → α → Bool} {entries last : List α}
    {init : List (List α)} {entry : α} (hpieces : entries.splitBy r = init ++ [last])
    (hgoesOn : ∀ other ∈ last.getLast?, r other entry = true) :
    (entries ++ [entry]).splitBy r = init ++ [last ++ [entry]] := by
  obtain ⟨hflatten, hnonempty, hchain, hends⟩ := List.splitBy_eq_iff.mp hpieces
  rw [List.mem_append, List.mem_singleton, not_or] at hnonempty
  obtain ⟨hinit, hlast⟩ := hnonempty
  rw [List.forall_mem_append, List.forall_mem_singleton] at hchain
  rw [List.splitBy_eq_iff]
  refine ⟨?_, ?_, ?_, ?_⟩
  · rw [hflatten, List.flatten_concat, List.flatten_concat, List.append_assoc]
  · rw [List.mem_append, List.mem_singleton, not_or]
    exact ⟨hinit, fun hnil => absurd hnil.symm (by simp)⟩
  · rw [List.forall_mem_append, List.forall_mem_singleton]
    refine ⟨hchain.1, List.isChain_append.mpr ⟨hchain.2, List.isChain_singleton _, ?_⟩⟩
    intro other hother next hnext
    obtain rfl : next = entry := by simpa using hnext.symm
    exact hgoesOn other hother
  · -- the piece begins as it did before
    rw [List.isChain_append] at hends ⊢
    refine ⟨hends.1, List.isChain_singleton _, fun piece hpiece next hnext => ?_⟩
    obtain ⟨hpieceNe, hlastNe, hapart⟩ := hends.2.2 piece hpiece last rfl
    obtain rfl : next = last ++ [entry] := by simpa using hnext.symm
    refine ⟨hpieceNe, by simp, ?_⟩
    rwa [List.head_append_of_ne_nil hlastNe]

namespace Comparison

/-- The class whose header stands above what is shown for an event. -/
def Event.header? : Event → Option String
  | .classOnlyIn .. => none
  | .propertyMatch property | .propertyOnlyIn _ property => some property.resolvedFor

/-- The class that an event shows as a whole, if it is one of this side. -/
def Event.classOnlyIn? (side : Side) : Event → Option String
  | .classOnlyIn other entry _ => if other = side then some entry.simpleName else none
  | .propertyMatch _ | .propertyOnlyIn .. => none

/-- Both events show properties of one class. -/
def Event.sharesHeader (earlier later : Event) : Bool :=
  earlier.header?.isSome && earlier.header? == later.header?

/-- The events cut into their longest runs under one header. -/
def runs (events : List Event) : List (List Event) := events.splitBy Event.sharesHeader

theorem Event.isAbout_iff {event : Event} {name : String} :
    event.IsAbout name ↔ event.header? = some name := by
  cases event with
  | classOnlyIn side entry properties => exact iff_of_false id nofun
  | propertyMatch property => exact Option.some_inj.symm
  | propertyOnlyIn side property => exact Option.some_inj.symm

theorem Event.sharesHeader_iff {earlier later : Event} {name : String}
    (hlater : later.header? = some name) :
    earlier.sharesHeader later = true ↔ earlier.header? = some name := by
  rw [Event.sharesHeader, hlater, Bool.and_eq_true, beq_iff_eq]
  exact ⟨And.right, fun hearlier => ⟨by rw [hearlier]; rfl, hearlier⟩⟩

/-- The header of a run. -/
def headerOf (run : List Event) : Option String := run.head?.bind Event.header?

theorem headerOf_eq_of_mem_runs {events run : List Event} (hrun : run ∈ runs events)
    {event : Event} (hevent : event ∈ run) : headerOf run = event.header? := by
  have hchain : run.IsChain fun earlier later => earlier.header? = later.header? := by
    refine (List.isChain_of_mem_splitBy hrun).imp fun earlier later hshares => ?_
    exact beq_iff_eq.mp (Bool.and_eq_true_iff.mp hshares).2
  have hpairwise := hchain.pairwise
  cases run with
  | nil => exact nomatch hevent
  | cons head rest =>
      rcases List.mem_cons.mp hevent with rfl | hrest
      · rfl
      · exact (List.pairwise_cons.mp hpairwise).1 event hrest

/-- The event begins a run: the one before it is not under its header. -/
def OpensRun (before : List Event) (event : Event) : Prop :=
  ∀ last ∈ before.getLast?, last.sharesHeader event = false

theorem runs_concat_of_opens {before : List Event} {event : Event}
    (hopens : OpensRun before event) : runs (before ++ [event]) = runs before ++ [[event]] :=
  List.splitBy_append_cons [] hopens

/-- An event that begins no run continues the last one, under its header. -/
theorem exists_runs_concat {before : List Event} {event : Event}
    (hgoesOn : ¬ OpensRun before event) : ∃ init last name, last ≠ [] ∧
      runs before = init ++ [last] ∧ runs (before ++ [event]) = init ++ [last ++ [event]] ∧
      headerOf last = some name ∧ event.header? = some name := by
  obtain ⟨final, hfinal, hshares⟩ : ∃ final ∈ before.getLast?,
      final.sharesHeader event = true := by
    simpa [OpensRun] using hgoesOn
  have hbefore : before ≠ [] := by
    rintro rfl
    exact nomatch hfinal
  have hruns : runs before ≠ [] := List.splitBy_ne_nil.mpr hbefore
  have hsplit := (List.dropLast_concat_getLast hruns).symm
  have hlastMem := List.getLast_mem hruns
  have hnonempty := List.ne_nil_of_mem_splitBy hlastMem
  have hlast : ((runs before).getLast hruns).getLast? = some final := by
    rw [← hfinal, List.getLast?_eq_some_getLast hbefore,
      ← List.getLast_getLast_splitBy Event.sharesHeader hbefore]
    exact List.getLast?_eq_some_getLast _
  have hjoins : ∀ other ∈ ((runs before).getLast hruns).getLast?,
      other.sharesHeader event = true := by
    rw [hlast]
    rintro other ⟨⟩
    exact hshares
  have hconcat := splitBy_concat hsplit hjoins
  obtain ⟨hsome, hsame⟩ := Bool.and_eq_true_iff.mp hshares
  obtain ⟨name, hname⟩ := Option.isSome_iff_exists.mp hsome
  refine ⟨_, _, name, hnonempty, hsplit, hconcat, ?_, (beq_iff_eq.mp hsame).symm.trans hname⟩
  exact (headerOf_eq_of_mem_runs hlastMem (List.mem_of_getLast? hlast)).trans hname

theorem headerOf_concat {run : List Event} (hrun : run ≠ []) (event : Event) :
    headerOf (run ++ [event]) = headerOf run := by
  obtain ⟨head, rest, rfl⟩ := List.exists_cons_of_ne_nil hrun
  rfl

end Comparison

/-! ## What is shown of a run -/

/-- The header of a run and the lines of its events. -/
def ReportStyle.runText (style : ReportStyle) (run : List Event) : String :=
  (headerOf run).elim "" (classLine none) ++ String.join (run.map style.eventText)

namespace Report

variable {style : ReportStyle} {report : Report} {before events : List Event} {event : Event}

/-- The class of a run under a header, if one of the events is a difference. -/
def changedClass? (run : List Event) : Option String :=
  if run.any Event.isDifference then headerOf run else none

/-- What has to be remembered of the last run. -/
def contextBehind (run : List Event) : Option ReportContext :=
  (headerOf run).map fun name => ⟨name, run.any Event.isDifference⟩

/-- The report shows the runs of the events, and remembers the last one. -/
structure Follows (style : ReportStyle) (events : List Event) (report : Report) : Prop where
  text : report.text = String.join ((runs events).map style.runText)
  modified : report.modified = (runs events).filterMap changedClass?
  context : report.context = (runs events).getLast?.bind contextBehind

theorem follows_nil (style : ReportStyle) : Follows style [] {} where
  text := rfl
  modified := rfl
  context := rfl

theorem header?_inForce (hfollows : Follows style before report) :
    report.context.map ReportContext.className = before.getLast?.bind Event.header? := by
  rw [hfollows.context]
  by_cases hbefore : before = []
  · subst hbefore
    rfl
  · have hruns : runs before ≠ [] := List.splitBy_ne_nil.mpr hbefore
    have hnonempty : (runs before).getLast hruns ≠ [] :=
      List.ne_nil_of_mem_splitBy (List.getLast_mem hruns)
    have hlast : ((runs before).getLast hruns).getLast hnonempty = before.getLast hbefore :=
      List.getLast_getLast_splitBy Event.sharesHeader hbefore
    rw [List.getLast?_eq_some_getLast hruns, List.getLast?_eq_some_getLast hbefore,
      Option.bind_some, Option.bind_some, ← hlast,
      ← headerOf_eq_of_mem_runs (List.getLast_mem hruns) (List.getLast_mem hnonempty),
      contextBehind, Option.map_map]
    exact Option.map_id'

/-- The header of an event that begins a run is not in force. -/
theorem elsewhere_of_opens (hfollows : Follows style before report)
    (hopens : OpensRun before event) {name : String} (hname : event.header? = some name) :
    report.Elsewhere name := by
  intro context hcontext heq
  have hinForce := header?_inForce hfollows
  rw [hcontext, Option.map_some, heq] at hinForce
  obtain ⟨last, hlast, hheader⟩ := Option.bind_eq_some_iff.mp hinForce.symm
  have hshares := (Event.sharesHeader_iff hname).mpr hheader
  rw [hopens last hlast] at hshares
  exact nomatch hshares

/-- **One event that begins a run** writes its header first. -/
theorem Follows.tell_of_opens (hfollows : Follows style before report)
    (hopens : OpensRun before event) :
    Follows style (before ++ [event]) (tell style report event) := by
  have hruns := runs_concat_of_opens hopens
  have hany : [event].any Event.isDifference = event.isDifference := by simp
  cases hheader : event.header? with
  | none =>
      cases event with
      | propertyMatch property => exact nomatch hheader
      | propertyOnlyIn side property => exact nomatch hheader
      | classOnlyIn side entry properties =>
          obtain ⟨hgrows, -⟩ := grows_tell_whole style report side entry properties
          refine ⟨?_, ?_, ?_⟩
          · rw [hgrows.text, hfollows.text, hruns]
            simp [ReportStyle.runText, headerOf, ReportStyle.eventText, hheader]
          · rw [hgrows.modified, hfollows.modified, hruns]
            simp [changedClass?, headerOf, hheader]
          · rw [hruns, List.getLast?_concat]
            cases side with
            | first => rfl
            | second => rfl
  | some name =>
      have habout := Event.isAbout_iff.mpr hheader
      have helsewhere := elsewhere_of_opens hfollows hopens hheader
      obtain ⟨hgrows, hcontext⟩ := grows_tell style habout
        (rfl : (report.underHeader name).context = some ⟨name, false⟩)
      rw [tell_of_elsewhere habout helsewhere]
      refine ⟨?_, ?_, ?_⟩
      · rw [hgrows.text, hruns]
        simp [underHeader, hfollows.text, ReportStyle.runText, headerOf, hheader, gainOf,
          String.append_assoc]
      · rw [hgrows.modified, hruns]
        cases hdifference : event.isDifference with
        | true => simp [underHeader, hfollows.modified, changedClass?, headerOf, hheader, gainOf,
            hdifference]
        | false => simp [underHeader, hfollows.modified, changedClass?, gainOf, hdifference]
      · rw [hcontext, hruns, List.getLast?_concat]
        simp [contextBehind, headerOf, hheader]

/-- **One event that continues a run** writes its line only, and its class is not counted
twice. -/
theorem Follows.tell_of_goesOn (hfollows : Follows style before report)
    (hgoesOn : ¬ OpensRun before event) :
    Follows style (before ++ [event]) (tell style report event) := by
  obtain ⟨init, last, name, hlast, hbefore, hruns, hheader, hname⟩ := exists_runs_concat hgoesOn
  have hcontext : report.context = some ⟨name, last.any Event.isDifference⟩ := by
    rw [hfollows.context, hbefore, List.getLast?_concat, Option.bind_some, contextBehind, hheader]
    rfl
  have hsameHeader := (headerOf_concat hlast event).trans hheader
  obtain ⟨hgrows, hafter⟩ := grows_tell style (Event.isAbout_iff.mpr hname) hcontext
  refine ⟨?_, ?_, ?_⟩
  · rw [hgrows.text, hfollows.text, hruns, hbefore]
    simp [ReportStyle.runText, hsameHeader, hheader, gainOf, String.append_assoc]
  · rw [hgrows.modified, hfollows.modified, hruns, hbefore]
    cases hcounted : last.any Event.isDifference with
    | true => simp [changedClass?, hsameHeader, hheader, gainOf, hcounted]
    | false =>
        cases hdifference : event.isDifference with
        | true => simp [changedClass?, hsameHeader, gainOf, hcounted, hdifference]
        | false => simp [changedClass?, gainOf, hcounted, hdifference]
  · rw [hafter, hruns, List.getLast?_concat, Option.bind_some, contextBehind, hsameHeader,
      List.any_append, Bool.or_comm]
    simp

/-- **All events.**  Whatever they are, the report follows their runs. -/
theorem follows_ofEvents (style : ReportStyle) (events : List Event) :
    Follows style events (ofEvents style events) := by
  induction events using List.reverseRecOn with
  | nil => exact follows_nil style
  | append_singleton before event ih =>
      have hstep : ofEvents style (before ++ [event]) =
          tell style (ofEvents style before) event := by
        rw [ofEvents, List.foldl_append]
        rfl
      rw [hstep]
      by_cases hopens : OpensRun before event
      · exact ih.tell_of_opens hopens
      · exact ih.tell_of_goesOn hopens

/-! ## What one more event adds -/

theorem text_concat_of_opens (hopens : OpensRun before event) :
    (ofEvents style (before ++ [event])).text =
      (ofEvents style before).text ++ event.header?.elim "" (classLine none) ++
        style.eventText event := by
  rw [(follows_ofEvents style _).text, (follows_ofEvents style _).text, runs_concat_of_opens hopens]
  simp [ReportStyle.runText, headerOf, String.append_assoc]

theorem text_concat_of_goesOn (hgoesOn : ¬ OpensRun before event) :
    (ofEvents style (before ++ [event])).text =
      (ofEvents style before).text ++ style.eventText event := by
  obtain ⟨init, last, name, hlast, hbefore, hruns, -, -⟩ := exists_runs_concat hgoesOn
  rw [(follows_ofEvents style _).text, (follows_ofEvents style _).text, hruns, hbefore]
  simp [ReportStyle.runText, headerOf_concat hlast, String.append_assoc]

/-- The text that has been written stays as it is. -/
theorem exists_text_append (style : ReportStyle) (before after : List Event) :
    ∃ more, (ofEvents style (before ++ after)).text = (ofEvents style before).text ++ more := by
  induction after using List.reverseRecOn with
  | nil => exact ⟨"", by simp⟩
  | append_singleton after event ih =>
      obtain ⟨more, hmore⟩ := ih
      rw [← List.append_assoc]
      by_cases hopens : OpensRun (before ++ after) event
      · rw [text_concat_of_opens hopens, hmore, String.append_assoc, String.append_assoc]
        exact ⟨_, rfl⟩
      · rw [text_concat_of_goesOn hopens, hmore, String.append_assoc]
        exact ⟨_, rfl⟩

/-! ## The tallies -/

/-- The tallies of the report are those of the events. -/
structure Counts (events : List Event) (report : Report) : Prop where
  deleted : report.deleted = events.filterMap (Event.classOnlyIn? .first)
  added : report.added = events.filterMap (Event.classOnlyIn? .second)
  propertiesDeleted : report.propertiesDeleted = (events.filterMap (Event.onlyIn? .first)).length
  propertiesAdded : report.propertiesAdded = (events.filterMap (Event.onlyIn? .second)).length

theorem Counts.enter (hcounts : Counts events report) (property : Property) :
    Counts events (report.enter property) := by
  unfold Report.enter
  split
  · exact hcounts
  · exact ⟨hcounts.deleted, hcounts.added, hcounts.propertiesDeleted, hcounts.propertiesAdded⟩

theorem Counts.markModified (hcounts : Counts events report) (property : Property) :
    Counts events (report.markModified property) := by
  unfold Report.markModified
  split
  · exact hcounts
  · exact ⟨hcounts.deleted, hcounts.added, hcounts.propertiesDeleted, hcounts.propertiesAdded⟩

/-- One more event is one more entry of each list that it belongs to. -/
theorem Counts.concat {after : Report} (hcounts : Counts before report)
    (hdeleted : after.deleted =
      (event.classOnlyIn? .first).elim report.deleted (report.deleted ++ [·]))
    (hadded : after.added =
      (event.classOnlyIn? .second).elim report.added (report.added ++ [·]))
    (hfewer : after.propertiesDeleted =
      (event.onlyIn? .first).elim report.propertiesDeleted fun _ => report.propertiesDeleted + 1)
    (hmore : after.propertiesAdded =
      (event.onlyIn? .second).elim report.propertiesAdded fun _ => report.propertiesAdded + 1) :
    Counts (before ++ [event]) after where
  deleted := by
    rw [hdeleted, hcounts.deleted, List.filterMap_append]
    cases hevent : event.classOnlyIn? .first with
    | none => simp [hevent]
    | some name => simp [hevent]
  added := by
    rw [hadded, hcounts.added, List.filterMap_append]
    cases hevent : event.classOnlyIn? .second with
    | none => simp [hevent]
    | some name => simp [hevent]
  propertiesDeleted := by
    rw [hfewer, hcounts.propertiesDeleted, List.filterMap_append, List.length_append]
    cases hevent : event.onlyIn? .first with
    | none => simp [hevent]
    | some property => simp [hevent]
  propertiesAdded := by
    rw [hmore, hcounts.propertiesAdded, List.filterMap_append, List.length_append]
    cases hevent : event.onlyIn? .second with
    | none => simp [hevent]
    | some property => simp [hevent]

theorem Counts.tell (hcounts : Counts before report) (style : ReportStyle) (event : Event) :
    Counts (before ++ [event]) (tell style report event) := by
  cases event with
  | classOnlyIn side entry properties =>
      cases side with
      | first => exact hcounts.concat rfl rfl rfl rfl
      | second => exact hcounts.concat rfl rfl rfl rfl
  | propertyMatch property => exact (hcounts.enter property).concat rfl rfl rfl rfl
  | propertyOnlyIn side property =>
      have hentered := (hcounts.enter property).markModified property
      cases side with
      | first => exact hentered.concat rfl rfl rfl rfl
      | second => exact hentered.concat rfl rfl rfl rfl

theorem counts_ofEvents (style : ReportStyle) (events : List Event) :
    Counts events (ofEvents style events) := by
  induction events using List.reverseRecOn with
  | nil => exact ⟨rfl, rfl, rfl, rfl⟩
  | append_singleton before event ih =>
      rw [ofEvents, List.foldl_append]
      exact ih.tell style event

/-! ## The report by its runs -/

/-- A class that only one side has is a run of its own. -/
theorem length_eq_one_of_headerOf_eq_none {run : List Event} (hrun : run ∈ runs events)
    (hheader : headerOf run = none) : run.length = 1 := by
  have hchain := List.isChain_of_mem_splitBy hrun
  cases run with
  | nil => exact absurd rfl (List.ne_nil_of_mem_splitBy hrun)
  | cons head rest =>
      cases rest with
      | nil => rfl
      | cons next rest =>
          have hshares := (List.isChain_cons_cons.mp hchain).1
          have hsome := (Bool.and_eq_true_iff.mp hshares).1
          have hhead : head.header? = none := hheader
          rw [hhead] at hsome
          exact nomatch hsome

/-- Runs under one header do not stand next to each other. -/
theorem isChain_headerOf_runs (events : List Event) :
    (runs events).IsChain fun run next => headerOf run = none ∨ headerOf run ≠ headerOf next := by
  refine (List.isChain_getLast_head_splitBy Event.sharesHeader events).imp_of_mem_imp ?_
  intro run next hrun hnext ⟨hrunNe, hnextNe, hapart⟩
  rw [headerOf_eq_of_mem_runs hrun (List.getLast_mem hrunNe),
    headerOf_eq_of_mem_runs hnext (List.head_mem hnextNe)]
  rw [Event.sharesHeader, Bool.and_eq_false_iff, beq_eq_false_iff_ne, Option.isSome_eq_false_iff,
    Option.isNone_iff_eq_none] at hapart
  exact hapart

/-- **Main statement.**  The events of a report, whatever they are, fall into runs: each has one
header or is a class that only one side has, and runs under one header are no neighbours.
The text is never changed but by what is written behind it.  An event that begins a run writes
its header and its line, any other one only its line; so the text shows one run after the
other.  The modified classes are those of the runs with a difference, in order and once for
each run.  The deleted and added classes are those that only one side has, in order, the
tallies of properties count those that only one side has, and all four together make up the
number of differences. -/
theorem report_by_runs (style : ReportStyle) (events : List Event) :
    let report := ofEvents style events
    ((runs events).flatten = events ∧
      (∀ run ∈ runs events, run ≠ [] ∧ (∀ event ∈ run, event.header? = headerOf run) ∧
        (headerOf run = none → run.length = 1)) ∧
      (runs events).IsChain fun run next =>
        headerOf run = none ∨ headerOf run ≠ headerOf next) ∧
    (∀ before after, events = before ++ after →
      ∃ more, report.text = (ofEvents style before).text ++ more) ∧
    (∀ before event after, events = before ++ event :: after →
      (OpensRun before event → (ofEvents style (before ++ [event])).text =
        (ofEvents style before).text ++ event.header?.elim "" (classLine none) ++
          style.eventText event) ∧
      (¬ OpensRun before event → (ofEvents style (before ++ [event])).text =
        (ofEvents style before).text ++ style.eventText event)) ∧
    report.text = String.join ((runs events).map style.runText) ∧
    report.modified = (runs events).filterMap changedClass? ∧
    report.deleted = events.filterMap (Event.classOnlyIn? .first) ∧
    report.added = events.filterMap (Event.classOnlyIn? .second) ∧
    report.propertiesDeleted = (events.filterMap (Event.onlyIn? .first)).length ∧
    report.propertiesAdded = (events.filterMap (Event.onlyIn? .second)).length ∧
    report.deleted.length + report.added.length + report.propertiesDeleted +
      report.propertiesAdded = differenceCount events := by
  intro report
  have hfollows : Follows style events report := follows_ofEvents style events
  have hcounts : Counts events report := counts_ofEvents style events
  refine ⟨⟨List.flatten_splitBy _ events, fun run hrun => ⟨List.ne_nil_of_mem_splitBy hrun,
      fun event hevent => (headerOf_eq_of_mem_runs hrun hevent).symm,
      length_eq_one_of_headerOf_eq_none hrun⟩, isChain_headerOf_runs events⟩, ?_, ?_,
    hfollows.text, hfollows.modified, hcounts.deleted, hcounts.added, hcounts.propertiesDeleted,
    hcounts.propertiesAdded, ?_⟩
  · rintro before after rfl
    exact exists_text_append style before after
  · intro before event after _
    exact ⟨text_concat_of_opens, text_concat_of_goesOn⟩
  · have htallies := tallies_foldl_tell style {} events
    rw [← Nat.zero_add (differenceCount events)]
    exact htallies

end Report

end ActivityCatalogue
