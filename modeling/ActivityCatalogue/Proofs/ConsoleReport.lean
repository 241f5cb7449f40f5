import ActivityCatalogue.Proofs.CatalogueComparison
import ActivityCatalogue.Proofs.History
import ActivityCatalogue.Report

/-!
# The console report of a comparison

A report is told one event after the other and remembers the class whose header it
has written last, and whether that class already counts as modified.  For a
comparison, whose events come class by class, this amounts to one block of lines for
each name that one of the catalogues shows (`Report.block`), and the tallies hold the
names of the classes that are gone, new or changed.

* **One class.**  Property events of one class that is not the last one write its
  header once, and count it as modified at most once (`grows_foldl_block`).  Without
  such events nothing is written, and the class before it stays the last one.
* **All classes.**  Names ascend strictly, so the last class never bears the next name
  (`grows_foldl_names`).
* **The count.**  Each event that is no match adds one to exactly one tally
  (`tallies_foldl_tell`).
-/

namespace ActivityCatalogue

open Comparison

/-! ## The events of one class -/

/-- The event shows a property of the class of this name. -/
def Comparison.Event.IsAbout (name : String) : Event → Prop
  | .classOnlyIn .. => False
  | .propertyMatch property | .propertyOnlyIn _ property => property.resolvedFor = name

/-- What is written for an event, apart from a header. -/
def ReportStyle.eventText (style : ReportStyle) : Event → String
  | .classOnlyIn side entry properties => style.wholeClass side entry.simpleName properties
  | .propertyMatch property => style.propertyLine none property
  | .propertyOnlyIn side property => style.propertyLine (some side) property

theorem isAbout_of_mem_propertyEvents {sensitivity : Sensitivity} {first second : List Property}
    {name : String} (hfirst : ∀ property ∈ first, property.resolvedFor = name)
    (hsecond : ∀ property ∈ second, property.resolvedFor = name) {event : Event}
    (hevent : event ∈ propertyEvents sensitivity first second) : event.IsAbout name := by
  obtain ⟨place, hplace, hevent⟩ := List.mem_flatMap.mp hevent
  cases place with
  | first l =>
      have hl : l ∈ first := mem_of_first?_align hplace rfl
      obtain rfl : event = .propertyOnlyIn .first l := List.mem_singleton.mp hevent
      exact hfirst l hl
  | second r =>
      have hr : r ∈ second := mem_of_second?_align hplace rfl
      obtain rfl : event = .propertyOnlyIn .second r := List.mem_singleton.mp hevent
      exact hsecond r hr
  | both l r =>
      have hl : l ∈ first := mem_of_first?_align hplace rfl
      have hr : r ∈ second := mem_of_second?_align hplace rfl
      simp only [propertyEventsAt] at hevent
      split at hevent
      · rcases List.mem_pair.mp hevent with rfl | rfl
        · exact hfirst l hl
        · exact hsecond r hr
      · obtain rfl : event = .propertyMatch l := List.mem_singleton.mp hevent
        exact hfirst l hl

/-- A class without properties on either side has no events, and only such a class. -/
theorem propertyEvents_eq_nil_iff {sensitivity : Sensitivity} {first second : List Property} :
    propertyEvents sensitivity first second = [] ↔ first = [] ∧ second = [] := by
  constructor
  · intro hnil
    have hplaces : align propertyOrder first second = [] := by
      rw [List.eq_nil_iff_forall_not_mem]
      intro place hplace
      have hnone : propertyEventsAt sensitivity place = [] :=
        List.flatMap_eq_nil_iff.mp hnil place hplace
      unfold propertyEventsAt at hnone
      split at hnone
      · simp at hnone
      · simp at hnone
      · split at hnone
        · simp at hnone
        · simp at hnone
    have hfirst := filterMap_first?_align propertyOrder first second
    have hsecond := filterMap_second?_align propertyOrder first second
    rw [hplaces] at hfirst hsecond
    exact ⟨hfirst.symm, hsecond.symm⟩
  · rintro ⟨rfl, rfl⟩
    simp [propertyEvents, align]

namespace Report

variable {style : ReportStyle} {report grown further : Report} {name : String} {modified : Bool}
  {event : Event} {events : List Event}

/-! ## Growing -/

/-- What a report has gained: text, and names of deleted, added and modified classes. -/
structure Gain where
  text : String := ""
  deleted : List String := []
  added : List String := []
  modified : List String := []

def Gain.append (first second : Gain) : Gain where
  text := first.text ++ second.text
  deleted := first.deleted ++ second.deleted
  added := first.added ++ second.added
  modified := first.modified ++ second.modified

instance : Append Gain := ⟨Gain.append⟩

theorem Gain.append_def (first second : Gain) :
    first ++ second = ⟨first.text ++ second.text, first.deleted ++ second.deleted,
      first.added ++ second.added, first.modified ++ second.modified⟩ :=
  rfl

/-- A report has become another one by gaining something. -/
structure Grows (report grown : Report) (gain : Gain) : Prop where
  text : grown.text = report.text ++ gain.text
  deleted : grown.deleted = report.deleted ++ gain.deleted
  added : grown.added = report.added ++ gain.added
  modified : grown.modified = report.modified ++ gain.modified

theorem Grows.refl (report : Report) : report.Grows report {} where
  text := by simp
  deleted := by simp
  added := by simp
  modified := by simp

theorem Grows.trans {gain more : Gain} (hfirst : report.Grows grown gain)
    (hsecond : grown.Grows further more) : report.Grows further (gain ++ more) where
  text := by rw [hsecond.text, hfirst.text, String.append_assoc]; rfl
  deleted := by rw [hsecond.deleted, hfirst.deleted, List.append_assoc]; rfl
  added := by rw [hsecond.added, hfirst.added, List.append_assoc]; rfl
  modified := by rw [hsecond.modified, hfirst.modified, List.append_assoc]; rfl

/-! ## Under a header -/

/-- The report with the header of a class that is not yet modified. -/
def underHeader (report : Report) (name : String) : Report :=
  { report with text := report.text ++ classLine none name, context := some ⟨name, false⟩ }

/-- The header that is in force is not that of the class. -/
def Elsewhere (report : Report) (name : String) : Prop :=
  ∀ context, report.context = some context → context.className ≠ name

theorem enter_of_inForce {property : Property} (hname : property.resolvedFor = name)
    (hcontext : report.context = some ⟨name, modified⟩) : report.enter property = report := by
  simp [enter, hcontext, hname]

theorem enter_of_elsewhere {property : Property} (hname : property.resolvedFor = name)
    (helsewhere : report.Elsewhere name) : report.enter property = report.underHeader name := by
  unfold enter underHeader
  rw [if_neg, hname]
  intro hany
  obtain ⟨context, hcontext, hsame⟩ := (Option.any_eq_true _ _).mp hany
  exact helsewhere context hcontext ((beq_iff_eq.mp hsame).trans hname)

/-- The first event of a class writes the header first. -/
theorem tell_of_elsewhere (habout : event.IsAbout name) (helsewhere : report.Elsewhere name) :
    tell style report event = tell style (report.underHeader name) event := by
  cases event with
  | classOnlyIn side entry properties => exact habout.elim
  | propertyMatch property =>
      have hheader : (report.underHeader name).enter property = report.underHeader name :=
        enter_of_inForce habout rfl
      simp only [tell, enter_of_elsewhere habout helsewhere, hheader]
  | propertyOnlyIn side property =>
      have hheader : (report.underHeader name).enter property = report.underHeader name :=
        enter_of_inForce habout rfl
      simp only [tell, enter_of_elsewhere habout helsewhere, hheader]

theorem markModified_of_inForce {property : Property} (hname : property.resolvedFor = name)
    (hcontext : report.context = some ⟨name, modified⟩) :
    report.markModified property =
      { report with
        modified := report.modified ++ if modified then [] else [name]
        context := some ⟨name, true⟩ } := by
  unfold markModified
  cases modified with
  | true =>
      have hmarked : report.context.any (·.modified) = true := by simp [hcontext]
      rw [if_pos hmarked]
      simp [← hcontext]
  | false => simp [hcontext, hname]

/-- What an event of the class in force adds. -/
def gainOf (style : ReportStyle) (name : String) (modified : Bool) (event : Event) : Gain where
  text := style.eventText event
  modified := if event.isDifference && !modified then [name] else []

/-- **One event** of the class in force writes its line, and a difference marks the
class as modified. -/
theorem grows_tell (style : ReportStyle) (habout : event.IsAbout name)
    (hcontext : report.context = some ⟨name, modified⟩) :
    report.Grows (tell style report event) (gainOf style name modified event) ∧
      (tell style report event).context = some ⟨name, event.isDifference || modified⟩ := by
  cases event with
  | classOnlyIn side entry properties => exact habout.elim
  | propertyMatch property =>
      have henter : report.enter property = report := enter_of_inForce habout hcontext
      simp only [tell, henter]
      exact ⟨⟨rfl, by simp [gainOf], by simp [gainOf], by simp [gainOf, Event.isDifference]⟩,
        hcontext⟩
  | propertyOnlyIn side property =>
      have henter : report.enter property = report := enter_of_inForce habout hcontext
      have hmodified : (if modified then [] else [name]) =
          (gainOf style name modified (.propertyOnlyIn side property)).modified := by
        cases modified with
        | true => rfl
        | false => rfl
      simp only [tell, henter, markModified_of_inForce habout hcontext, hmodified]
      cases side with
      | first => exact ⟨⟨rfl, by simp [gainOf], by simp [gainOf], rfl⟩, rfl⟩
      | second => exact ⟨⟨rfl, by simp [gainOf], by simp [gainOf], rfl⟩, rfl⟩

/-- What the events of a class add once its header is written. -/
def gainOfAll (style : ReportStyle) (name : String) (modified : Bool) (events : List Event) :
    Gain where
  text := String.join (events.map style.eventText)
  modified := if events.any Event.isDifference && !modified then [name] else []

theorem grows_foldl_tell (style : ReportStyle) (habout : ∀ event ∈ events, event.IsAbout name)
    (hcontext : report.context = some ⟨name, modified⟩) :
    report.Grows (events.foldl (tell style) report) (gainOfAll style name modified events) ∧
      (events.foldl (tell style) report).context =
        some ⟨name, events.any Event.isDifference || modified⟩ := by
  induction events generalizing report modified with
  | nil => exact ⟨Grows.refl report, by simpa using hcontext⟩
  | cons event rest ih =>
      obtain ⟨hevent, hrest⟩ := List.forall_mem_cons.mp habout
      obtain ⟨hgrows, hafter⟩ := grows_tell style hevent hcontext
      obtain ⟨hgrowsRest, hend⟩ := ih hrest hafter
      have hgain : gainOf style name modified event ++
          gainOfAll style name (event.isDifference || modified) rest =
            gainOfAll style name modified (event :: rest) := by
        cases hdifference : event.isDifference with
        | true => simp [Gain.append_def, gainOf, gainOfAll, hdifference]
        | false => simp [Gain.append_def, gainOf, gainOfAll, hdifference]
      refine ⟨hgain ▸ hgrows.trans hgrowsRest, ?_⟩
      rw [List.foldl_cons, hend, List.any_cons, ← Bool.or_assoc, Bool.or_comm event.isDifference]

/-! ## One class after another -/

/-- What the events of a class add, together with its header. -/
def gainOfClass (style : ReportStyle) (name : String) (events : List Event) : Gain where
  text :=
    if events.isEmpty then "" else classLine none name ++ String.join (events.map style.eventText)
  modified := if events.any Event.isDifference then [name] else []

/-- **One class** writes its header once, and afterwards its header or none but the
one before is in force. -/
theorem grows_foldl_class (habout : ∀ event ∈ events, event.IsAbout name)
    (helsewhere : report.Elsewhere name) :
    report.Grows (events.foldl (tell style) report) (gainOfClass style name events) ∧
      ∀ other, other ≠ name → report.Elsewhere other →
        (events.foldl (tell style) report).Elsewhere other := by
  cases events with
  | nil => exact ⟨Grows.refl report, fun _ _ hother => hother⟩
  | cons event rest =>
      have hheader : (event :: rest).foldl (tell style) report =
          (event :: rest).foldl (tell style) (report.underHeader name) := by
        rw [List.foldl_cons, tell_of_elsewhere (habout event List.mem_cons_self) helsewhere,
          List.foldl_cons]
      have hunder : report.Grows (report.underHeader name) { text := classLine none name } :=
        ⟨rfl, by simp [underHeader], by simp [underHeader], by simp [underHeader]⟩
      obtain ⟨hgrows, hafter⟩ := grows_foldl_tell style habout
        (rfl : (report.underHeader name).context = some ⟨name, false⟩)
      have hgain : ({ text := classLine none name } : Gain) ++
          gainOfAll style name false (event :: rest) = gainOfClass style name (event :: rest) := by
        simp [Gain.append_def, gainOfAll, gainOfClass]
      rw [hheader]
      refine ⟨hgain ▸ hunder.trans hgrows, fun other hne _ context hcontext => ?_⟩
      rw [hafter, Option.some_inj] at hcontext
      subst hcontext
      exact hne.symm

/-- A class that only one side has is written as a whole, and no header is in force
afterwards. -/
theorem grows_tell_whole (style : ReportStyle) (report : Report) (side : Side) (entry : ClassEntry)
    (properties : List Property) :
    report.Grows (tell style report (.classOnlyIn side entry properties))
        { text := style.wholeClass side entry.simpleName properties
          deleted := if side = .first then [entry.simpleName] else []
          added := if side = .second then [entry.simpleName] else [] } ∧
      ∀ other, (tell style report (.classOnlyIn side entry properties)).Elsewhere other := by
  cases side with
  | first => exact ⟨⟨rfl, rfl, by simp [tell], by simp [tell]⟩, nofun⟩
  | second => exact ⟨⟨rfl, by simp [tell], rfl, by simp [tell]⟩, nofun⟩

/-! ## All classes of a comparison -/

/-- The block of lines for a name: what only one catalogue shows with its properties,
all behind the mark of its side, or a header and the lines of the property events.
A class without properties on either side has no lines. -/
def block (style : ReportStyle) (first second : Catalogue) (name : String) : String :=
  match first.shown? name, second.shown? name with
  | none, none => ""
  | some l, none =>
    "- " ++ name ++ "\n" ++
      String.join ((first.properties l).map (style.propertyLine (some .first)))
  | none, some r =>
    "+ " ++ name ++ "\n" ++
      String.join ((second.properties r).map (style.propertyLine (some .second)))
  | some l, some r =>
    if (first.properties l).isEmpty && (second.properties r).isEmpty then ""
    else
      "  " ++ name ++ "\n" ++ String.join ((propertyEvents style.sensitivity (first.properties l)
        (second.properties r)).map style.eventText)

/-- Only the first catalogue shows the name. -/
def isGone (first second : Catalogue) (name : String) : Bool :=
  (first.shown? name).isSome && (second.shown? name).isNone

/-- Only the second catalogue shows the name. -/
def isFresh (first second : Catalogue) (name : String) : Bool :=
  (first.shown? name).isNone && (second.shown? name).isSome

/-- Both catalogues show the name, and the properties differ. -/
def isChanged (sensitivity : Sensitivity) (first second : Catalogue) (name : String) : Bool :=
  match first.shown? name, second.shown? name with
  | some l, some r =>
    (propertyEvents sensitivity (first.properties l) (second.properties r)).any Event.isDifference
  | _, _ => false

/-- What the events of some names add. -/
def gainOfNames (style : ReportStyle) (first second : Catalogue) (names : List String) : Gain where
  text := String.join (names.map (block style first second))
  deleted := names.filter (isGone first second)
  added := names.filter (isFresh first second)
  modified := names.filter (isChanged style.sensitivity first second)

theorem gainOfNames_cons (style : ReportStyle) (first second : Catalogue) (names : List String) :
    gainOfNames style first second [name] ++ gainOfNames style first second names =
      gainOfNames style first second (name :: names) := by
  simp only [gainOfNames, Gain.append_def, ← List.filter_append, List.singleton_append,
    List.map_cons, List.map_nil, String.join_cons, String.join_nil, String.append_empty]

variable {first second : Catalogue}

theorem isAbout_of_mem_eventsOf_both (sensitivity : Sensitivity) (hfirst : first.Reachable)
    (hsecond : second.Reachable) {l r : ClassEntry} (hl : first.shown? name = some l)
    (hr : second.shown? name = some r) :
    ∀ event ∈ propertyEvents sensitivity (first.properties l) (second.properties r),
      event.IsAbout name := by
  obtain ⟨hleft, rfl⟩ := Catalogue.shown?_eq_some_iff.mp hl
  obtain ⟨hright, hname⟩ := Catalogue.shown?_eq_some_iff.mp hr
  intro event hevent
  refine isAbout_of_mem_propertyEvents (fun property hproperty => ?_)
    (fun property hproperty => ?_) hevent
  · exact hfirst.resolvedFor_eq (List.mem_of_mem_filter hleft) hproperty
  · exact (hsecond.resolvedFor_eq (List.mem_of_mem_filter hright) hproperty).trans hname

/-- **One name** adds its block and enters at most one of the tallies. -/
theorem grows_foldl_name (style : ReportStyle) (hfirst : first.Reachable)
    (hsecond : second.Reachable) (helsewhere : report.Elsewhere name) :
    report.Grows ((eventsNamed style.sensitivity first second name).foldl (tell style) report)
        (gainOfNames style first second [name]) ∧
      ∀ other, other ≠ name → report.Elsewhere other →
        ((eventsNamed style.sensitivity first second name).foldl (tell style) report).Elsewhere
          other := by
  unfold eventsNamed
  cases hl : first.shown? name with
  | none =>
      cases hr : second.shown? name with
      | none =>
          have hgain : gainOfNames style first second [name] = {} := by
            simp [gainOfNames, block, isGone, isFresh, isChanged, hl, hr]
          rw [hgain]
          exact ⟨Grows.refl report, fun _ _ hother => hother⟩
      | some r =>
          obtain ⟨-, hname⟩ := Catalogue.shown?_eq_some_iff.mp hr
          obtain ⟨hgrows, hafter⟩ := grows_tell_whole style report .second r (second.properties r)
          have hgain : gainOfNames style first second [name] =
              { text := style.wholeClass .second r.simpleName (second.properties r)
                deleted := if Side.second = .first then [r.simpleName] else []
                added := if Side.second = .second then [r.simpleName] else [] } := by
            simp [gainOfNames, block, isGone, isFresh, isChanged, hl, hr, hname,
              ReportStyle.wholeClass, classLine, sideMark]
          exact ⟨hgain ▸ hgrows, fun other _ _ => hafter other⟩
  | some l =>
      cases hr : second.shown? name with
      | none =>
          obtain ⟨-, hname⟩ := Catalogue.shown?_eq_some_iff.mp hl
          obtain ⟨hgrows, hafter⟩ := grows_tell_whole style report .first l (first.properties l)
          have hgain : gainOfNames style first second [name] =
              { text := style.wholeClass .first l.simpleName (first.properties l)
                deleted := if Side.first = .first then [l.simpleName] else []
                added := if Side.first = .second then [l.simpleName] else [] } := by
            simp [gainOfNames, block, isGone, isFresh, isChanged, hl, hr, hname,
              ReportStyle.wholeClass, classLine, sideMark]
          exact ⟨hgain ▸ hgrows, fun other _ _ => hafter other⟩
      | some r =>
          have habout := isAbout_of_mem_eventsOf_both style.sensitivity hfirst
            hsecond hl hr
          have hgain : gainOfNames style first second [name] =
              gainOfClass style name (propertyEvents style.sensitivity (first.properties l)
                (second.properties r)) := by
            have hempty : (propertyEvents style.sensitivity (first.properties l)
                (second.properties r)).isEmpty =
                  ((first.properties l).isEmpty && (second.properties r).isEmpty) := by
              rw [Bool.eq_iff_iff]
              simp [propertyEvents_eq_nil_iff]
            simp [gainOfNames, gainOfClass, block, isGone, isFresh, isChanged, hl, hr, hempty,
              classLine, sideMark, List.filter_cons]
          rw [hgain]
          exact grows_foldl_class habout helsewhere

/-- **All names.**  Each adds its block and enters its tally, in order. -/
theorem grows_foldl_names (hfirst : first.Reachable) (hsecond : second.Reachable)
    {names : List String} (hdistinct : names.Nodup)
    (helsewhere : ∀ name ∈ names, report.Elsewhere name) :
    report.Grows
      ((names.flatMap (eventsNamed style.sensitivity first second)).foldl (tell style) report)
      (gainOfNames style first second names) := by
  induction names generalizing report with
  | nil => exact Grows.refl report
  | cons name rest ih =>
      obtain ⟨hnew, hrest⟩ := List.nodup_cons.mp hdistinct
      obtain ⟨hgrows, hafter⟩ := grows_foldl_name style hfirst hsecond
        (helsewhere name List.mem_cons_self)
      -- the header of this name is in force, but no later name is the same
      have hlater : ∀ other ∈ rest, ((eventsNamed style.sensitivity first second name).foldl
          (tell style) report).Elsewhere other := by
        intro other hother
        have hne : other ≠ name := fun heq => hnew (heq ▸ hother)
        exact hafter other hne (helsewhere other (List.mem_cons_of_mem name hother))
      rw [List.flatMap_cons, List.foldl_append, ← gainOfNames_cons]
      exact hgrows.trans (ih hrest hlater)

/-! ## The count -/

/-- The sum of the tallies of deleted and added classes and properties. -/
def tallies (report : Report) : Nat :=
  report.deleted.length + report.added.length + report.propertiesDeleted + report.propertiesAdded

theorem tallies_enter (report : Report) (property : Property) :
    (report.enter property).tallies = report.tallies := by
  unfold enter
  split
  · rfl
  · rfl

theorem tallies_markModified (report : Report) (property : Property) :
    (report.markModified property).tallies = report.tallies := by
  unfold markModified
  split
  · rfl
  · rfl

theorem tallies_tell (style : ReportStyle) (report : Report) (event : Event) :
    (tell style report event).tallies = report.tallies + if event.isDifference then 1 else 0 := by
  cases event with
  | classOnlyIn side entry properties =>
      cases side with
      | first =>
          simp only [tallies, tell, List.length_append, List.length_singleton, Event.isDifference,
            if_true]
          omega
      | second =>
          simp only [tallies, tell, List.length_append, List.length_singleton, Event.isDifference,
            if_true]
          omega
  | propertyMatch property => exact tallies_enter report property
  | propertyOnlyIn side property =>
      have hsame := (tallies_markModified (report.enter property) property).trans
        (tallies_enter report property)
      cases side with
      | first =>
          simp only [tallies, tell, Event.isDifference, if_true] at hsame ⊢
          omega
      | second =>
          simp only [tallies, tell, Event.isDifference, if_true] at hsame ⊢
          omega

/-- The tallies grow by the number of differences, whatever the events. -/
theorem tallies_foldl_tell (style : ReportStyle) (report : Report) (events : List Event) :
    (events.foldl (tell style) report).tallies = report.tallies + differenceCount events := by
  induction events generalizing report with
  | nil => rfl
  | cons event rest ih =>
      rw [List.foldl_cons, ih, tallies_tell, differenceCount, differenceCount, List.countP_cons]
      omega

/-! ## The report of a comparison -/

theorem grows_ofEvents (hfirst : first.Reachable) (hsecond : second.Reachable)
    (style : ReportStyle) :
    Report.Grows {} (ofEvents style (Comparison.events style.sensitivity first second))
      (gainOfNames style first second (shownNames first second)) := by
  have hdistinct : (shownNames first second).Nodup :=
    (pairwise_shownNames first second).imp fun hbytes heq =>
      ((bytesBefore_iff_lt _ _).mp hbytes).ne heq
  rw [ofEvents, events_eq_flatMap_shownNames]
  exact grows_foldl_names hfirst hsecond hdistinct fun _ _ => nofun

/-- **Main statement.**  The report of a comparison has one block of lines for each
name that one of the catalogues shows, in ascending order.  Its lists of deleted,
added and modified classes ascend and have no name in common; they hold the names
that only the first catalogue shows, that only the second one shows, and that both
show with different properties.  The tallies of classes and properties that are
deleted or added make up the number of differences. -/
theorem report_by_name (first second : Catalogue) (hfirst : first.Reachable)
    (hsecond : second.Reachable) (style : ReportStyle) :
    let report := ofEvents style (Comparison.events style.sensitivity first second)
    (∃ names : List String,
      names.Pairwise BytesBefore ∧
      (∀ name, name ∈ names ↔ (first.shown? name).isSome ∨ (second.shown? name).isSome) ∧
      report.text = String.join (names.map (block style first second))) ∧
    report.deleted.Pairwise BytesBefore ∧
    report.added.Pairwise BytesBefore ∧
    report.modified.Pairwise BytesBefore ∧
    report.deleted.Disjoint report.added ∧
    report.deleted.Disjoint report.modified ∧
    report.added.Disjoint report.modified ∧
    (∀ name, name ∈ report.deleted ↔
      (first.shown? name).isSome ∧ second.shown? name = none) ∧
    (∀ name, name ∈ report.added ↔
      first.shown? name = none ∧ (second.shown? name).isSome) ∧
    (∀ name, name ∈ report.modified ↔
      ∃ l r, first.shown? name = some l ∧ second.shown? name = some r ∧
        ∃ event ∈ propertyEvents style.sensitivity (first.properties l) (second.properties r),
          event.isDifference = true) ∧
    report.deleted.length + report.added.length + report.propertiesDeleted +
      report.propertiesAdded = differences style.sensitivity first second := by
  intro report
  have hgrows : Report.Grows {} report (gainOfNames style first second (shownNames first second)) :=
    grows_ofEvents hfirst hsecond style
  have hdeleted : report.deleted = (shownNames first second).filter (isGone first second) :=
    hgrows.deleted
  have hadded : report.added = (shownNames first second).filter (isFresh first second) :=
    hgrows.added
  have hmodified : report.modified =
      (shownNames first second).filter (isChanged style.sensitivity first second) := hgrows.modified
  have hascending := pairwise_shownNames first second
  have hgone : ∀ name, name ∈ report.deleted ↔
      (first.shown? name).isSome ∧ second.shown? name = none := by
    intro name
    rw [hdeleted, List.mem_filter, mem_shownNames_iff, isGone, Bool.and_eq_true,
      Option.isNone_iff_eq_none]
    exact ⟨fun hname => hname.2, fun hname => ⟨Or.inl hname.1, hname⟩⟩
  have hfresh : ∀ name, name ∈ report.added ↔
      first.shown? name = none ∧ (second.shown? name).isSome := by
    intro name
    rw [hadded, List.mem_filter, mem_shownNames_iff, isFresh, Bool.and_eq_true,
      Option.isNone_iff_eq_none]
    exact ⟨fun hname => hname.2, fun hname => ⟨Or.inr hname.2, hname⟩⟩
  have hchanged : ∀ name, name ∈ report.modified ↔
      ∃ l r, first.shown? name = some l ∧ second.shown? name = some r ∧
        ∃ event ∈ propertyEvents style.sensitivity (first.properties l) (second.properties r),
          event.isDifference = true := by
    intro name
    rw [hmodified, List.mem_filter, mem_shownNames_iff, isChanged]
    cases hl : first.shown? name with
    | none => simp
    | some l =>
        cases hr : second.shown? name with
        | none => simp
        | some r => simp
  refine ⟨⟨shownNames first second, hascending, fun name => mem_shownNames_iff, ?_⟩,
    hdeleted ▸ hascending.filter _, hadded ▸ hascending.filter _, hmodified ▸ hascending.filter _,
    ?_, ?_, ?_, hgone, hfresh, hchanged, ?_⟩
  · exact hgrows.text.trans (String.empty_append ..)
  · intro name hdeleted hadded
    have hnone := ((hgone name).mp hdeleted).2
    have hsome := ((hfresh name).mp hadded).2
    simp [hnone] at hsome
  · intro name hdeleted hmodified
    have hnone := ((hgone name).mp hdeleted).2
    obtain ⟨l, r, -, hr, -⟩ := (hchanged name).mp hmodified
    simp [hnone] at hr
  · intro name hadded hmodified
    have hnone := ((hfresh name).mp hadded).1
    obtain ⟨l, r, hl, -⟩ := (hchanged name).mp hmodified
    simp [hnone] at hl
  · have hcount := tallies_foldl_tell style {} (Comparison.events style.sensitivity first second)
    rw [differences_eq, ← Nat.zero_add (differenceCount _)]
    exact hcount

/-- Activities directly below a root, each with its properties. -/
def activities (classes : List (String × List DeclaredProperty)) : Catalogue :=
  classes.foldl
    (fun catalogue entry => catalogue.register "App" {
      fullName := entry.1, isPublic := true, baseTypeFullName := "Root", properties := entry.2 })
    (.empty (.ofList ["Root"]))

theorem reachable_activities (classes : List (String × List DeclaredProperty)) :
    (activities classes).Reachable := by
  unfold activities
  refine List.foldlRecOn classes _ (Catalogue.Reachable.empty _) fun catalogue hreach entry _ => ?_
  exact hreach.register _ _

/-- A class that goes, one that changes, one that stays as it is and one without properties. -/
def formerRelease : Catalogue :=
  activities [("Click", [{ name := "Count", typeFullName := "Int32" }]),
    ("Drag", [{ name := "Speed", typeFullName := "Int32" }]),
    ("Hover", [{ name := "Count", typeFullName := "Int32" }]), ("Idle", [])]

def latterRelease : Catalogue :=
  activities [("Drag", [{ name := "Speed", typeFullName := "Int64" }]),
    ("Fade", [{ name := "Count", typeFullName := "Int32" }]),
    ("Hover", [{ name := "Count", typeFullName := "Int32" }]), ("Idle", [])]

theorem report_of_releases :
    formerRelease.Reachable ∧ latterRelease.Reachable ∧
    let report := ofEvents ⟨.typedStrict, ⟨.empty⟩⟩
      (Comparison.events .typedStrict formerRelease latterRelease)
    report.text = "- Click\n-     Count (Int32)\n" ++ "  Drag\n-     Speed (Int32)\n" ++
      "+     Speed (Int64)\n" ++ "+ Fade\n+     Count (Int32)\n" ++
      "  Hover\n      Count (Int32)\n" ∧
    report.deleted.Disjoint report.modified ∧
    report.deleted.length + report.added.length + report.propertiesDeleted +
      report.propertiesAdded = differences .typedStrict formerRelease latterRelease := by
  have hformer : formerRelease.Reachable := reachable_activities _
  have hlatter : latterRelease.Reachable := reachable_activities _
  obtain ⟨-, -, -, -, -, hdisjoint, -, -, -, -, hcount⟩ :=
    report_by_name formerRelease latterRelease hformer hlatter ⟨.typedStrict, ⟨.empty⟩⟩
  exact ⟨hformer, hlatter, by decide +kernel, hdisjoint, hcount⟩

end Report

end ActivityCatalogue
