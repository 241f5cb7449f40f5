import ActivityCatalogue.Proofs.CatalogueComparison
import ActivityCatalogue.Proofs.History

/-!
# Findings

A comparison tells a property that has been retyped by two events, what the first
catalogue had and what the second one has.  `findings` reads events back: two neighbours
that tell so of one property of one class are one finding, any other event is a finding
by itself.

* **Nothing else looks like that.**  The findings of a comparison are about different
  things, as classes ascend by name and so do the properties of a class.  So two events
  that stand side by side belong together only if they come from one place of the
  comparison (`findings_flatMap_events`).
* **What is found** is therefore known place by place (`findings_events`).
-/

namespace ActivityCatalogue

/-- What a property is told by: the class that has it, and its name there. -/
def Property.subject (property : Property) : String × Option String :=
  (property.resolvedFor, some property.displayName)

namespace Comparison

/-- What an event is about: a class, or a property of one. -/
def Event.subject : Event → String × Option String
  | .classOnlyIn _ entry _ => (entry.simpleName, none)
  | .propertyMatch property | .propertyOnlyIn _ property => property.subject

inductive Finding where
  /-- What one event tells. -/
  | single (event : Event)
  /-- A property with one type in the first catalogue and another in the second. -/
  | retyped (first second : Property)
  deriving DecidableEq

namespace Finding

def events : Finding → List Event
  | single event => [event]
  | retyped first second => [.propertyOnlyIn .first first, .propertyOnlyIn .second second]

def subject : Finding → String × Option String
  | single event => event.subject
  | retyped first _ => first.subject

def isRetyped : Finding → Bool
  | single _ => false
  | retyped .. => true

/-- A property that has been retyped is one property. -/
def IsOfOne : Finding → Prop
  | single _ => True
  | retyped first second => first.subject = second.subject

end Finding

/-- Findings with one more event before them.  If that event and the next one tell of one
property, as the first catalogue has it and as the second one does, they make one finding. -/
def preceded (event : Event) (later : List Finding) : List Finding :=
  match event, later with
  | .propertyOnlyIn .first l, .single (.propertyOnlyIn .second r) :: rest =>
    if l.subject = r.subject then .retyped l r :: rest else .single event :: later
  | _, _ => .single event :: later

/-- Events read back. -/
def findings : List Event → List Finding
  | [] => []
  | event :: rest => preceded event (findings rest)

/-! ## Reading events back -/

theorem flatMap_events_preceded (event : Event) (later : List Finding) :
    (preceded event later).flatMap Finding.events = event :: later.flatMap Finding.events := by
  unfold preceded
  split
  · split
    · rfl
    · rfl
  · rfl

/-- Reading events back loses none of them and keeps their order. -/
theorem flatMap_events_findings (events : List Event) :
    (findings events).flatMap Finding.events = events := by
  induction events with
  | nil => rfl
  | cons event rest ih => rw [findings, flatMap_events_preceded, ih]

theorem preceded_of_ne {event : Event} {later : List Finding}
    (hnew : event.subject ∉ later.map Finding.subject) :
    preceded event later = .single event :: later := by
  unfold preceded
  split
  · next l r rest =>
      -- the next finding is about something else
      have hne : l.subject ≠ r.subject := (List.ne_of_not_mem_cons hnew :)
      rw [if_neg hne]
  · rfl

/-- What the second catalogue has never joins what comes later. -/
theorem preceded_second (r : Property) (later : List Finding) :
    preceded (.propertyOnlyIn .second r) later = .single (.propertyOnlyIn .second r) :: later :=
  rfl

/-- **Findings about different things** are read back from their events. -/
theorem findings_flatMap_events {found : List Finding} (hone : ∀ finding ∈ found, finding.IsOfOne)
    (hdistinct : (found.map Finding.subject).Nodup) :
    findings (found.flatMap Finding.events) = found := by
  induction found with
  | nil => rfl
  | cons finding rest ih =>
      obtain ⟨hfinding, hrest⟩ := List.forall_mem_cons.mp hone
      obtain ⟨hnew, hdistinctRest⟩ := List.nodup_cons.mp hdistinct
      have hread := ih hrest hdistinctRest
      cases finding with
      | single event =>
          calc findings (event :: rest.flatMap Finding.events)
              = preceded event rest := by rw [findings, hread]
            _ = .single event :: rest := preceded_of_ne hnew
      | retyped l r =>
          have hsame : l.subject = r.subject := hfinding
          calc findings (.propertyOnlyIn .first l :: .propertyOnlyIn .second r ::
                  rest.flatMap Finding.events)
              = preceded (.propertyOnlyIn .first l)
                  (.single (.propertyOnlyIn .second r) :: rest) := by
                rw [findings, findings, hread, preceded_second]
            _ = .retyped l r :: rest := if_pos hsame

/-! ## The findings of a comparison, place by place -/

variable (sensitivity : Sensitivity)

/-- What is found at one place of two aligned property lists. -/
def findingAt : Aligned Property Property → Finding
  | .first l => .single (.propertyOnlyIn .first l)
  | .second r => .single (.propertyOnlyIn .second r)
  | .both l r => if sensitivity.separates l r then .retyped l r else .single (.propertyMatch l)

/-- What is found for a class that one catalogue or both show. -/
def classFindings (first second : Catalogue) : Aligned ClassEntry ClassEntry → List Finding
  | .first entry => [.single (.classOnlyIn .first entry (first.properties entry))]
  | .second entry => [.single (.classOnlyIn .second entry (second.properties entry))]
  | .both l r =>
    (align propertyOrder (first.properties l) (second.properties r)).map (findingAt sensitivity)

/-- What is found for all classes. -/
def found (first second : Catalogue) : List Finding :=
  (align classOrder first.accessible second.accessible).flatMap
    (classFindings sensitivity first second)

theorem events_findingAt (place : Aligned Property Property) :
    (findingAt sensitivity place).events = propertyEventsAt sensitivity place := by
  cases place with
  | first l => rfl
  | second r => rfl
  | both l r =>
      simp only [findingAt, propertyEventsAt]
      split
      · rfl
      · rfl

theorem flatMap_events_classFindings (first second : Catalogue)
    (place : Aligned ClassEntry ClassEntry) :
    (classFindings sensitivity first second place).flatMap Finding.events =
      classEvents sensitivity first second place := by
  cases place with
  | first entry => rfl
  | second entry => rfl
  | both l r =>
      simp only [classFindings, classEvents, propertyEvents, List.flatMap_map, events_findingAt]

theorem flatMap_events_found (first second : Catalogue) :
    (found sensitivity first second).flatMap Finding.events =
      events sensitivity first second := by
  rw [events_eq_flatMap_align, found, List.flatMap_assoc]
  simp only [flatMap_events_classFindings]

/-! ## Every finding is about something else -/

/-- The properties of one class, as resolution lists them. -/
structure ListsClass (className : String) (properties : List Property) : Prop where
  ascending : AscendingBy Property.displayName properties
  resolvedFor : ∀ property ∈ properties, property.resolvedFor = className

variable {sensitivity} {first second : Catalogue}

theorem ListsClass.subject_eq {className : String} {properties : List Property}
    (hlists : ListsClass className properties) {property : Property}
    (hproperty : property ∈ properties) :
    property.subject = (className, some property.displayName) :=
  congrArg (·, some property.displayName) (hlists.resolvedFor property hproperty)

section

variable {left right : List Property} {className : String} {place : Aligned Property Property}

/-- A place of two aligned property lists is about the name that stands there. -/
theorem subject_findingAt (hleft : ListsClass className left) (hright : ListsClass className right)
    (hplace : place ∈ align propertyOrder left right) :
    (findingAt sensitivity place).subject =
      (className, some (place.key Property.displayName Property.displayName)) := by
  have hfits := fits_of_mem_align hleft.ascending hright.ascending hplace
  cases place with
  | first l => exact hleft.subject_eq hfits.1
  | second r => exact hright.subject_eq hfits.1
  | both l r =>
      simp only [findingAt]
      split
      · exact hleft.subject_eq hfits.1
      · exact hleft.subject_eq hfits.1

theorem isOfOne_findingAt (hleft : ListsClass className left) (hright : ListsClass className right)
    (hplace : place ∈ align propertyOrder left right) :
    (findingAt sensitivity place).IsOfOne := by
  have hfits := fits_of_mem_align hleft.ascending hright.ascending hplace
  cases place with
  | first l => trivial
  | second r => trivial
  | both l r =>
      obtain ⟨hl, hr, hname⟩ := hfits
      simp only [findingAt]
      split
      · exact (hleft.subject_eq hl).trans (hname ▸ (hright.subject_eq hr).symm)
      · trivial

/-- No two places of aligned property lists are about the same property. -/
theorem nodup_subjects_map_findingAt (hleft : ListsClass className left)
    (hright : ListsClass className right) :
    (((align propertyOrder left right).map (findingAt sensitivity)).map Finding.subject).Nodup := by
  have hsubjects : ((align propertyOrder left right).map (findingAt sensitivity)).map
      Finding.subject = ((align propertyOrder left right).map
        (Aligned.key Property.displayName Property.displayName)).map (className, some ·) := by
    rw [List.map_map, List.map_map]
    exact List.map_congr_left fun place hplace => subject_findingAt hleft hright hplace
  rw [hsubjects]
  refine (pairwise_key_align hleft.ascending hright.ascending).nodup_names.map fun _ _ heq => ?_
  exact Option.some.inj (Prod.mk.inj heq).2

end

/-- Two classes that are compared have properties of one class. -/
theorem listsClass_of_place (hfirst : first.Reachable) (hsecond : second.Reachable)
    {l r : ClassEntry} (hplace : .both l r ∈ align classOrder first.accessible second.accessible) :
    ListsClass l.simpleName (first.properties l) ∧
      ListsClass l.simpleName (second.properties r) := by
  obtain ⟨hl, hr, hname⟩ := fits_place hplace
  have hleft : l ∈ first.entries := (List.mem_filter.mp hl).1
  have hright : r ∈ second.entries := (List.mem_filter.mp hr).1
  refine ⟨⟨hfirst.ascendingBy_properties hleft, fun property => hfirst.resolvedFor_eq hleft⟩,
    hsecond.ascendingBy_properties hright, fun property hproperty => ?_⟩
  exact (hsecond.resolvedFor_eq hright hproperty).trans hname.symm

/-- What is found for a class is about that class. -/
theorem className_of_mem_classFindings (hfirst : first.Reachable) (hsecond : second.Reachable)
    {place : Aligned ClassEntry ClassEntry}
    (hplace : place ∈ align classOrder first.accessible second.accessible) {finding : Finding}
    (hfinding : finding ∈ classFindings sensitivity first second place) :
    finding.subject.1 = placeName place := by
  cases place with
  | first entry =>
      obtain rfl := List.mem_singleton.mp hfinding
      rfl
  | second entry =>
      obtain rfl := List.mem_singleton.mp hfinding
      rfl
  | both l r =>
      obtain ⟨hleft, hright⟩ := listsClass_of_place hfirst hsecond hplace
      obtain ⟨inner, hinner, rfl⟩ := List.mem_map.mp hfinding
      rw [subject_findingAt hleft hright hinner]
      rfl

theorem nodup_subjects_found (hfirst : first.Reachable) (hsecond : second.Reachable) :
    ((found sensitivity first second).map Finding.subject).Nodup := by
  rw [found, List.map_flatMap, List.nodup_flatMap]
  constructor
  · intro place hplace
    cases place with
    | first entry => exact List.nodup_singleton _
    | second entry => exact List.nodup_singleton _
    | both l r =>
        obtain ⟨hleft, hright⟩ := listsClass_of_place hfirst hsecond hplace
        exact nodup_subjects_map_findingAt hleft hright
  · -- different places are about classes of different names
    have hnames := pairwise_key_align first.ascendingBy_accessible second.ascendingBy_accessible
    refine List.Pairwise.imp_of_mem (fun {earlier later} hearlier hlater hlt => ?_) hnames
    intro subject hleft hright
    obtain ⟨finding, hfinding, rfl⟩ := List.mem_map.mp hleft
    obtain ⟨other, hother, hsame⟩ := List.mem_map.mp hright
    refine hlt.ne ?_
    calc placeName earlier
        = finding.subject.1 := (className_of_mem_classFindings hfirst hsecond hearlier hfinding).symm
      _ = other.subject.1 := congrArg Prod.fst hsame.symm
      _ = placeName later := className_of_mem_classFindings hfirst hsecond hlater hother

theorem isOfOne_of_mem_found (hfirst : first.Reachable) (hsecond : second.Reachable)
    {finding : Finding} (hfinding : finding ∈ found sensitivity first second) :
    finding.IsOfOne := by
  obtain ⟨place, hplace, hfinding⟩ := List.mem_flatMap.mp hfinding
  cases place with
  | first entry =>
      obtain rfl := List.mem_singleton.mp hfinding
      trivial
  | second entry =>
      obtain rfl := List.mem_singleton.mp hfinding
      trivial
  | both l r =>
      obtain ⟨hleft, hright⟩ := listsClass_of_place hfirst hsecond hplace
      obtain ⟨inner, hinner, rfl⟩ := List.mem_map.mp hfinding
      exact isOfOne_findingAt hleft hright hinner

/-- **The events of a comparison** are read back as what is found, place by place. -/
theorem findings_events (hfirst : first.Reachable) (hsecond : second.Reachable) :
    findings (events sensitivity first second) = found sensitivity first second := by
  rw [← flatMap_events_found]
  exact findings_flatMap_events (fun _ => isOfOne_of_mem_found hfirst hsecond)
    (nodup_subjects_found hfirst hsecond)

end Comparison

end ActivityCatalogue
