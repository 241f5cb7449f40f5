import ActivityCatalogue.Proofs.Unasked

/-!
# Catalogues that are filled, copied and asked

Any number of catalogues are in use, under names.  One is filled, or takes over the classes
of another, or a question is put to one or two of them.  A question settles the properties
of the classes that it asks for, so what a catalogue answers may depend on its history.

The history of one catalogue is read backwards, through the catalogues that it was copied
from: `origin` says under which name its classes were held before some actions, and `calls`
collects what they were filled with since.

* **What a class has settled on.**  It is what resolution gave when the class, or the one
  that it was copied from, was first asked for (`properties_of_firstAsked`).
* **When all filling comes first.**  Then nothing that is settled on gets out of date
  (`isFresh_of_filledFirst`), so every answer is that of catalogues which were filled the
  same way and never asked (`Question.answer_eq`).
-/

namespace ActivityCatalogue

/-- The catalogues in use, by their names. -/
abbrev Catalogues := String → Catalogue

namespace Catalogues

/-! ## Questions -/

inductive Question where
  /-- The properties of a class. -/
  | properties (name className : String)
  | listing (name : String) (simplifier : Simplifier)
  /-- The comparison of two catalogues. -/
  | diff (sensitivity : Comparison.Sensitivity) (first second : String)
  /-- The comparison of a class of one catalogue with a class of another. -/
  | classDiff (sensitivity : Comparison.Sensitivity) (first firstClass second secondClass : String)

/-- What a question is answered with.  The events of a comparison tell of classes as they
are apart from what they have settled on. -/
inductive Answer where
  | properties (found : Option (List Property))
  | listing (text : String)
  | diff (events : List Comparison.Event) (differences : Nat)
  | classDiff (events : Option (List Comparison.Event))

namespace Question

/-- The names of the catalogues that the question is put to. -/
def names : Question → List String
  | properties name _ => [name]
  | listing name _ => [name]
  | diff _ first second => [first, second]
  | classDiff _ first _ second _ => [first, second]

/-- Whether the question asks for the properties of a class of the catalogue `name`. -/
def asksFor (catalogues : Catalogues) (name : String) (entry : ClassEntry) : Question → Bool
  | properties asked className => name == asked && entry.simpleName == className
  | listing asked _ => name == asked && (catalogues name).isAccessible entry
  | diff _ first second => (name == first || name == second) && (catalogues name).isAccessible entry
  | classDiff _ first firstClass second secondClass =>
    (name == first && entry.simpleName == firstClass) ||
      (name == second && entry.simpleName == secondClass)

def answer (catalogues : Catalogues) : Question → Answer
  | properties name className =>
    .properties (((catalogues name).find? className).map (catalogues name).properties)
  | listing name simplifier => .listing ((catalogues name).listing simplifier)
  | diff sensitivity first second =>
    .diff ((Comparison.events sensitivity (catalogues first) (catalogues second)).map
        Comparison.Event.unasked)
      (Comparison.differences sensitivity (catalogues first) (catalogues second))
  | classDiff sensitivity first firstClass second secondClass =>
    .classDiff do
      let left ← ((catalogues first).find? firstClass).map (catalogues first).properties
      let right ← ((catalogues second).find? secondClass).map (catalogues second).properties
      return Comparison.propertyEvents sensitivity left right

end Question

/-! ## Actions -/

inductive Action where
  | fill (name : String) (call : Filling)
  /-- The catalogue `target` becomes a copy of `source`. -/
  | copy (source target : String)
  | ask (question : Question)

/-- The catalogues after an action. -/
def act (catalogues : Catalogues) : Action → Catalogues
  | .fill name call => Function.update catalogues name (call.fill (catalogues name))
  | .copy source target => Function.update catalogues target (catalogues source)
  | .ask question => fun name =>
    (catalogues name).settle fun entry => question.asksFor catalogues name entry

/-- The catalogues after several actions. -/
def after (catalogues : Catalogues) (actions : List Action) : Catalogues :=
  actions.foldl act catalogues

theorem after_append (catalogues : Catalogues) (actions later : List Action) :
    catalogues.after (actions ++ later) = (catalogues.after actions).after later :=
  List.foldl_append

/-- New catalogues with certain roots. -/
def fresh (roots : String → NameSet) : Catalogues := fun name => .empty (roots name)

/-! ## The history of one catalogue -/

/-- The name under which the classes of `name` were held before an action. -/
def Action.origin (name : String) : Action → String
  | copy source target => if name = target then source else name
  | fill .. | ask _ => name

/-- The name under which the classes of `name` were held before several actions. -/
def origin : List Action → String → String
  | [], name => name
  | action :: later, name => action.origin (origin later name)

/-- What an action fills the catalogue `name` with. -/
def Action.calls (name : String) : Action → List Filling
  | fill target call => if name = target then [call] else []
  | copy .. | ask _ => []

/-- What the classes of `name` were filled with during several actions. -/
def calls : List Action → String → List Filling
  | [], _ => []
  | action :: later, name => action.calls (origin later name) ++ calls later name

theorem origin_append (actions later : List Action) (name : String) :
    origin (actions ++ later) name = origin actions (origin later name) := by
  induction actions with
  | nil => rfl
  | cons action rest ih => rw [List.cons_append, origin, ih, origin]

theorem act_fill (catalogues : Catalogues) (target name : String) (call : Filling) :
    catalogues.act (.fill target call) name =
      (Action.calls name (.fill target call)).foldl Filling.fill (catalogues name) := by
  by_cases hname : name = target
  · rw [Action.calls, if_pos hname, act, hname, Function.update_self]
    rfl
  · rw [Action.calls, if_neg hname, act, Function.update_of_ne hname]
    rfl

theorem act_copy (catalogues : Catalogues) (source target name : String) :
    catalogues.act (.copy source target) name =
      catalogues (Action.origin name (.copy source target)) := by
  by_cases hname : name = target
  · rw [Action.origin, if_pos hname, act, hname, Function.update_self]
  · rw [Action.origin, if_neg hname, act, Function.update_of_ne hname]

theorem find?_act_ask (catalogues : Catalogues) (question : Question) (name className : String) :
    (catalogues.act (.ask question) name).find? className =
      ((catalogues name).find? className).map
        ((catalogues name).settling fun entry => question.asksFor catalogues name entry) :=
  NameMap.find?_mapValues (catalogues name).classes className _

/-- One step: apart from what was settled on, an action fills a catalogue. -/
theorem unasked_act (catalogues : Catalogues) (action : Action) (name : String) :
    (catalogues.act action name).unasked =
      (action.calls name).foldl Filling.fill (catalogues (action.origin name)).unasked := by
  cases action with
  | fill target call =>
      rw [act_fill, Catalogue.unasked_foldl_fill]
      rfl
  | copy source target =>
      rw [act_copy]
      rfl
  | ask question => exact Catalogue.unasked_settle _ _

/-- A whole run, by induction on its actions. -/
theorem unasked_after (catalogues : Catalogues) (actions : List Action) (name : String) :
    (catalogues.after actions name).unasked =
      (calls actions name).foldl Filling.fill (catalogues (origin actions name)).unasked := by
  induction actions generalizing catalogues with
  | nil => rfl
  | cons action rest ih =>
      rw [after, List.foldl_cons, ← after, ih, unasked_act, calls, origin, List.foldl_append]

/-- New catalogues become the catalogues that were filled the same way, apart from what was
settled on. -/
theorem unasked_after_fresh (roots : String → NameSet) (actions : List Action) (name : String) :
    ((fresh roots).after actions name).unasked =
      .filled (roots (origin actions name)) (calls actions name) :=
  unasked_after (fresh roots) actions name

/-! ## When a class is first asked for -/

/-- The question asks for the class that the catalogue `name` has under `className`. -/
def Question.Reaches (question : Question) (catalogues : Catalogues) (name className : String) :
    Prop :=
  ∃ entry, (catalogues name).find? className = some entry ∧
    question.asksFor catalogues name entry = true

/-- No question asks for the class `className` of `name`, or for one it was copied from. -/
def NeverAsked (start : Catalogues) (actions : List Action) (name className : String) : Prop :=
  ∀ before question later, actions = before ++ .ask question :: later →
    ¬ question.Reaches (start.after before) (origin later name) className

/-- The first question that asks for the class `className` of `name`, or for one it was copied
from, comes after `before`, and `later` follows. -/
structure FirstAsked (start : Catalogues) (actions : List Action) (name className : String)
    (before : List Action) (question : Question) (later : List Action) : Prop where
  split : actions = before ++ .ask question :: later
  reaches : question.Reaches (start.after before) (origin later name) className
  notBefore : NeverAsked start before (origin later name) className

variable {start catalogues : Catalogues} {actions before later : List Action} {action : Action}
  {question : Question} {name className : String} {entry : ClassEntry}

theorem NeverAsked.of_concat (hnever : NeverAsked start (actions ++ [action]) name className) :
    NeverAsked start actions (action.origin name) className := by
  intro before question later hsplit
  have horigin : origin (later ++ [action]) name = origin later (action.origin name) :=
    origin_append later [action] name
  rw [← horigin]
  exact hnever before question (later ++ [action]) (by rw [hsplit, List.append_assoc]; rfl)

/-- If a class is asked for at all, then it is asked for a first time. -/
theorem exists_firstAsked (hasked : ¬ NeverAsked start actions name className) :
    ∃ before question later, FirstAsked start actions name className before question later := by
  simp only [NeverAsked, not_forall, not_not] at hasked
  obtain ⟨before, question, later, hsplit, hreaches⟩ := hasked
  -- by induction on the length of what comes before the question
  induction hlength : before.length using Nat.strong_induction_on
    generalizing before question later with
  | _ length ih =>
      by_cases hnever : NeverAsked start before (origin later name) className
      · exact ⟨before, question, later, hsplit, hreaches, hnever⟩
      · simp only [NeverAsked, not_forall, not_not] at hnever
        obtain ⟨earlier, other, between, hbefore, hother⟩ := hnever
        have hshorter : earlier.length < length := by
          rw [← hlength, hbefore, List.length_append, List.length_cons]
          omega
        have horigin : origin (between ++ .ask question :: later) name =
            origin between (origin later name) :=
          origin_append between (.ask question :: later) name
        refine ih earlier.length hshorter earlier other (between ++ .ask question :: later)
          ?_ ?_ rfl
        · rw [hsplit, hbefore, List.append_assoc, List.cons_append]
        · rw [horigin]
          exact hother

/-! ## What a class has settled on -/

/-- The catalogue has a class under `className` that has settled on these properties. -/
def Remembers (catalogue : Catalogue) (className : String) (properties : List Property) : Prop :=
  ∃ entry, catalogue.find? className = some entry ∧ entry.settled = some properties

/-- One step: what a class has settled on, it keeps. -/
theorem remembers_act {properties : List Property}
    (hremembers : Remembers (catalogues (action.origin name)) className properties) :
    Remembers (catalogues.act action name) className properties := by
  cases action with
  | fill target call =>
      obtain ⟨entry, hfound, hsettled⟩ := hremembers
      refine ⟨entry, ?_, hsettled⟩
      rw [act_fill, Catalogue.foldl_fill, Catalogue.find?_foldl_take]
      exact Option.or_eq_some_iff.mpr (Or.inl hfound)
  | copy source target =>
      rw [act_copy]
      exact hremembers
  | ask question =>
      obtain ⟨entry, hfound, hsettled⟩ := hremembers
      have hproperties : (catalogues name).properties entry = properties := by
        rw [Catalogue.properties, hsettled, Option.getD_some]
      refine ⟨_, (find?_act_ask catalogues question name className).trans
        (congrArg _ hfound), ?_⟩
      rw [Catalogue.settling]
      split
      · exact congrArg some hproperties
      · exact hsettled

/-- A whole run, by induction on its actions. -/
theorem remembers_after {properties : List Property}
    (hremembers : Remembers (catalogues (origin actions name)) className properties) :
    Remembers (catalogues.after actions name) className properties := by
  induction actions generalizing catalogues with
  | nil => exact hremembers
  | cons action rest ih => exact ih (remembers_act hremembers)

/-- One step: a class that no question asks for settles on nothing. -/
theorem settled_act
    (hunsettled : ∀ old, (catalogues (action.origin name)).find? className = some old →
      old.settled = none)
    (hunasked : ∀ question, action = .ask question → ¬ question.Reaches catalogues name className)
    (hfound : (catalogues.act action name).find? className = some entry) :
    entry.settled = none := by
  cases action with
  | fill target call =>
      rw [act_fill, Catalogue.foldl_fill, Catalogue.find?_foldl_take,
        Option.or_eq_some_iff] at hfound
      rcases hfound with hold | ⟨-, hnew⟩
      · exact hunsettled entry hold
      · obtain ⟨offer, -, rfl⟩ := Option.map_eq_some_iff.mp hnew
        rfl
  | copy source target =>
      rw [act_copy] at hfound
      exact hunsettled entry hfound
  | ask question =>
      rw [find?_act_ask, Option.map_eq_some_iff] at hfound
      obtain ⟨old, hold, rfl⟩ := hfound
      have hnot : ¬ question.asksFor catalogues name old = true := fun hasks =>
        hunasked question rfl ⟨old, hold, hasks⟩
      rw [Catalogue.settling, if_neg hnot]
      exact hunsettled old hold

/-- A whole run, by induction on its actions from the last one back. -/
theorem settled_of_neverAsked {roots : String → NameSet}
    (hnever : NeverAsked (fresh roots) actions name className)
    (hfound : ((fresh roots).after actions name).find? className = some entry) :
    entry.settled = none := by
  induction actions using List.reverseRecOn generalizing name entry with
  | nil => exact nomatch hfound
  | append_singleton actions action ih =>
      rw [after_append] at hfound
      refine settled_act (fun old hold => ih hnever.of_concat hold) ?_ hfound
      rintro question rfl
      exact hnever actions question [] rfl

/-- What a class shows once it was asked for is what resolution gave when it was first asked
for. -/
theorem properties_of_firstAsked {roots : String → NameSet}
    (hfirst : FirstAsked (fresh roots) actions name className before question later)
    (hfound : ((fresh roots).after actions name).find? className = some entry) :
    ∃ old, ((fresh roots).after before (origin later name)).find? className = some old ∧
      ((fresh roots).after actions name).properties entry =
        ((fresh roots).after before (origin later name)).resolve old := by
  obtain ⟨old, hold, hasks⟩ := hfirst.reaches
  refine ⟨old, hold, ?_⟩
  have hunsettled : old.settled = none := settled_of_neverAsked hfirst.notBefore hold
  have hremembers : Remembers (((fresh roots).after before).act (.ask question)
      (origin later name)) className
        (((fresh roots).after before (origin later name)).resolve old) := by
    refine ⟨_, (find?_act_ask _ question _ className).trans (congrArg _ hold), ?_⟩
    rw [Catalogue.settling, if_pos hasks, Catalogue.settleEntry, Catalogue.properties, hunsettled,
      Option.getD_none]
  obtain ⟨kept, hkept, hsettled⟩ := remembers_after hremembers
  have hsame : kept = entry := by
    rw [hfirst.split, after_append] at hfound
    exact Option.some.inj (hkept.symm.trans hfound)
  rw [Catalogue.properties, ← hsame, hsettled, Option.getD_some]

/-- What a class shows that was never asked for is what resolution gives now. -/
theorem properties_of_neverAsked {roots : String → NameSet}
    (hnever : NeverAsked (fresh roots) actions name className)
    (hfound : ((fresh roots).after actions name).find? className = some entry) :
    ((fresh roots).after actions name).properties entry =
      ((fresh roots).after actions name).resolve entry := by
  rw [Catalogue.properties, settled_of_neverAsked hnever hfound, Option.getD_none]

/-! ## When all filling comes first -/

/-- No class comes into the catalogue `name`, or into one it was copied from, after a question
was put to it. -/
def FilledFirst (actions : List Action) (name : String) : Prop :=
  ∀ before question later, actions = before ++ .ask question :: later →
    origin later name ∈ question.names → (calls later name).flatMap Filling.offers = []

theorem Question.mem_names_of_reaches (hreaches : question.Reaches catalogues name className) :
    name ∈ question.names := by
  obtain ⟨entry, -, hasks⟩ := hreaches
  cases question with
  | properties asked className => simp_all [asksFor, names]
  | listing asked simplifier => simp_all [asksFor, names]
  | diff sensitivity first second => simp_all [asksFor, names]
  | classDiff sensitivity first firstClass second secondClass =>
      simp only [asksFor, Bool.or_eq_true, Bool.and_eq_true, beq_iff_eq] at hasks
      rcases hasks with ⟨rfl, -⟩ | ⟨rfl, -⟩
      · exact List.mem_cons_self
      · exact List.mem_cons_of_mem _ List.mem_cons_self

theorem calls_eq_nil (hnone : ∀ target call, .fill target call ∉ actions) (name : String) :
    calls actions name = [] := by
  induction actions with
  | nil => rfl
  | cons action rest ih =>
      have hrest := ih fun target call hmem => hnone target call (List.mem_cons_of_mem _ hmem)
      rw [calls, hrest, List.append_nil]
      cases action with
      | fill target call => exact absurd List.mem_cons_self (hnone target call)
      | copy source target => rfl
      | ask question => rfl

/-- All filling comes first if the actions before it ask nothing and those behind it fill
nothing. -/
theorem filledFirst_append {further : List Action} (hasks : ∀ question, .ask question ∉ actions)
    (hfills : ∀ target call, .fill target call ∉ further) (name : String) :
    FilledFirst (actions ++ further) name := by
  intro before question later hsplit _
  have hlater : later ⊆ further := by
    rcases List.append_eq_append_iff.mp hsplit with ⟨between, -, rfl⟩ | ⟨between, hactions, hrest⟩
    · intro action hmem
      exact List.mem_append_right _ (List.mem_cons_of_mem _ hmem)
    · cases between with
      | nil =>
          intro action hmem
          rw [List.nil_append] at hrest
          exact hrest ▸ List.mem_cons_of_mem _ hmem
      | cons action between =>
          obtain ⟨rfl, -⟩ := List.cons.inj hrest
          refine absurd ?_ (hasks question)
          rw [hactions]
          exact List.mem_append_right _ List.mem_cons_self
  rw [calls_eq_nil fun target call hmem => hfills target call (hlater hmem)]
  rfl

/-- Where no class comes in, nothing changes apart from what is settled on. -/
theorem unasked_after_of_offers_eq_nil
    (hnone : (calls later name).flatMap Filling.offers = []) :
    (catalogues.after later name).unasked = (catalogues (origin later name)).unasked := by
  rw [unasked_after, Catalogue.foldl_fill, hnone]
  rfl

theorem isFresh_of_filledFirst (roots : String → NameSet) (hfilled : FilledFirst actions name) :
    ((fresh roots).after actions name).IsFresh := by
  intro entry hentry
  have hfound : ((fresh roots).after actions name).find? entry.simpleName = some entry :=
    Catalogue.find?_eq_some_iff.mpr ⟨hentry, rfl⟩
  by_cases hnever : NeverAsked (fresh roots) actions name entry.simpleName
  · exact properties_of_neverAsked hnever hfound
  · obtain ⟨before, question, later, hfirst⟩ := exists_firstAsked hnever
    obtain ⟨old, hold, hproperties⟩ := properties_of_firstAsked hfirst hfound
    have hnone : (calls later name).flatMap Filling.offers = [] :=
      hfilled before question later hfirst.split (Question.mem_names_of_reaches hfirst.reaches)
    -- Nothing has come in since, so the class and its ancestors are what they were then.
    have hunasked : ((fresh roots).after actions name).unasked =
        ((fresh roots).after before (origin later name)).unasked := by
      have hbehind : (calls (.ask question :: later) name).flatMap Filling.offers = [] := hnone
      rw [hfirst.split, after_append, unasked_after_of_offers_eq_nil hbehind]
      rfl
    have hsame : entry.unasked = old.unasked := by
      have hnow := congrArg (Option.map ClassEntry.unasked) hfound
      have hthen := congrArg (Option.map ClassEntry.unasked) hold
      rw [← Catalogue.find?_unasked] at hnow hthen
      rw [hunasked, hthen] at hnow
      exact (Option.some.inj hnow).symm
    rw [hproperties, ← Catalogue.resolve_unasked, ← Catalogue.resolve_unasked _ entry, hunasked,
      hsame]

/-- A question is answered alike by catalogues that differ in what was settled on before, as
long as that is what resolution gives now. -/
theorem Question.answer_eq {others : Catalogues}
    (hfresh : ∀ name ∈ question.names, (catalogues name).IsFresh)
    (hothers : ∀ name ∈ question.names, others name = (catalogues name).unasked) :
    question.answer catalogues = question.answer others := by
  cases question with
  | properties name className =>
      rw [answer, answer, hothers name List.mem_cons_self,
        (hfresh name List.mem_cons_self).map_properties_eq]
  | listing name simplifier =>
      rw [answer, answer, hothers name List.mem_cons_self,
        (hfresh name List.mem_cons_self).listing_eq]
  | diff sensitivity first second =>
      have hfirst : first ∈ (diff sensitivity first second).names := List.mem_cons_self
      have hsecond : second ∈ (diff sensitivity first second).names :=
        List.mem_cons_of_mem _ List.mem_cons_self
      rw [answer, answer, hothers first hfirst, hothers second hsecond,
        ← Comparison.events_eq_unasked (hfresh first hfirst) (hfresh second hsecond),
        Comparison.differences_eq_unasked (hfresh first hfirst) (hfresh second hsecond),
        List.map_map, Comparison.Event.unasked_comp_unasked]
  | classDiff sensitivity first firstClass second secondClass =>
      have hfirst : first ∈ (classDiff sensitivity first firstClass second secondClass).names :=
        List.mem_cons_self
      have hsecond : second ∈ (classDiff sensitivity first firstClass second secondClass).names :=
        List.mem_cons_of_mem _ List.mem_cons_self
      rw [answer, answer, hothers first hfirst, hothers second hsecond,
        (hfresh first hfirst).map_properties_eq, (hfresh second hsecond).map_properties_eq]

/-- **Main statement.**  Catalogues that began empty were filled, copied and asked.

* What a class shows now is what resolution gave when the class, or one that it was copied
  from, was first asked for; if that has not happened yet, it is what resolution gives now.
* If all filling of a catalogue came before the first question that was put to it, then all
  its classes show what resolution gives now.
* If that holds for the catalogues that a question is put to, then the answer is that of
  catalogues which were filled the same way and never asked or copied. -/
theorem properties_settle_once (roots : String → NameSet) (actions : List Action) :
    let now := (fresh roots).after actions
    (∀ name className entry, (now name).find? className = some entry →
      (NeverAsked (fresh roots) actions name className ∧
        (now name).properties entry = (now name).resolve entry) ∨
      ∃ before question later old,
        FirstAsked (fresh roots) actions name className before question later ∧
        ((fresh roots).after before (origin later name)).find? className = some old ∧
        (now name).properties entry =
          ((fresh roots).after before (origin later name)).resolve old) ∧
    (∀ name, FilledFirst actions name →
      ∀ entry ∈ (now name).entries, (now name).properties entry = (now name).resolve entry) ∧
    ∀ question : Question, (∀ name ∈ question.names, FilledFirst actions name) →
      question.answer now =
        question.answer fun name => .filled (roots (origin actions name)) (calls actions name) := by
  intro now
  refine ⟨fun name className entry hfound => ?_, fun name => isFresh_of_filledFirst roots,
    fun question hfilled => ?_⟩
  · by_cases hnever : NeverAsked (fresh roots) actions name className
    · exact Or.inl ⟨hnever, properties_of_neverAsked hnever hfound⟩
    · obtain ⟨before, question, later, hfirst⟩ := exists_firstAsked hnever
      obtain ⟨old, hold, hproperties⟩ := properties_of_firstAsked hfirst hfound
      exact Or.inr ⟨before, question, later, old, hfirst, hold, hproperties⟩
  · refine question.answer_eq (fun name hname => ?_) fun name _ => ?_
    · exact isFresh_of_filledFirst roots (hfilled name hname)
    · exact (unasked_after_fresh roots actions name).symm

/-- A class below a class below the root. -/
def leaf : Filling :=
  .register "App" {
    fullName := "Leaf", isPublic := true, baseTypeFullName := "Base"
    properties := [{ name := "Size", typeFullName := "Int32" }] }

/-- The class between it and the root. -/
def base : Filling :=
  .register "App" {
    fullName := "Base", baseTypeFullName := "Root"
    properties := [{ name := "Speed", typeFullName := "Int32" }] }

/-- The names under which a catalogue shows the properties of the class below. -/
def shownOfLeaf (catalogue : Catalogue) : Option (List String) :=
  (catalogue.find? "Leaf").map fun entry =>
    (catalogue.properties entry).map Property.displayName

/-- Asked too early, a class does not show what comes in above it later; a copy from before the
question does. -/
example :
    let now := (fresh fun _ => .ofList ["Root"]).after
      [.fill "old" leaf, .copy "old" "new", .ask (.properties "old" "Leaf"), .fill "old" base,
        .fill "new" base]
    shownOfLeaf (now "old") = some ["Size"] ∧
      shownOfLeaf (now "new") = some ["Base::Speed", "Size"] := by
  decide +kernel

/-- A catalogue is filled, asked and copied, and the copy is asked. -/
def askedAndCopied : List Action :=
  [.fill "old" leaf, .fill "old" base] ++
    [.ask (.properties "old" "Leaf"), .copy "old" "new", .ask (.listing "new" ⟨.empty⟩)]

/-- Comparing it with its copy comes out as if neither had been asked. -/
theorem answer_askedAndCopied :
    let roots := fun _ => NameSet.ofList ["Root"]
    let question : Question := .diff .typedLoose "old" "new"
    (∀ name ∈ question.names, FilledFirst askedAndCopied name) ∧
      question.answer ((fresh roots).after askedAndCopied) = question.answer fun name =>
        .filled (roots (origin askedAndCopied name)) (calls askedAndCopied name) := by
  intro roots question
  have hfilled : ∀ name, FilledFirst askedAndCopied name :=
    filledFirst_append (by simp) (by simp)
  obtain ⟨-, -, hanswer⟩ := properties_settle_once roots askedAndCopied
  exact ⟨fun name _ => hfilled name, hanswer question fun name _ => hfilled name⟩

end Catalogues

end ActivityCatalogue
