import ActivityCatalogue.Proofs.CatalogueComparison
import ActivityCatalogue.Report

/-!
# Classes that a comparison passes over

The walk looks at the next class of each catalogue, at that of the first one first.  An
inaccessible class is passed over with a note in the log, but only while both catalogues
have classes left.  What remains of one catalogue when the other one is used up is sifted
without a word.

So a class is passed over in silence exactly if the other catalogue is used up when its turn
comes, and that is a matter of names:

* an inaccessible class of the first catalogue comes up behind the accessible classes before
  it.  Among the classes that the second catalogue has left then (`Outlasts`) the accessible
  ones stand behind all of those, and an inaccessible one is held back by an accessible one in
  front of it (`IsToldOfFirst`);
* an inaccessible class of the second catalogue comes up when the first catalogue has passed
  over its own, so an accessible class has to be left there (`IsToldOfSecond`).

The classes that are told of are the first ones of each catalogue, and of one catalogue they
are all, since one of the two is used up with both still in the walk.
-/

namespace ActivityCatalogue

namespace Comparison

variable {first second : Catalogue} {left right : List ClassEntry} {l r entry : ClassEntry}

/-! ## Which classes are told of -/

/-- The walk is past an accessible class `passed` of the one catalogue, but not past `other`:
an accessible class stands between them, or is `other` itself. -/
def Outlasts (second : Catalogue) (right : List ClassEntry) (passed other : ClassEntry) : Prop :=
  passed.simpleName < other.simpleName ∧
    ∃ shown ∈ right, second.isAccessible shown = true ∧
      passed.simpleName ≤ shown.simpleName ∧ shown.simpleName ≤ other.simpleName

/-- Some class of `right` is left when the walk comes to the inaccessible `entry` of `left`. -/
def IsToldOfFirst (first second : Catalogue) (left right : List ClassEntry) (entry : ClassEntry) :
    Prop :=
  ∃ other ∈ right, ∀ passed ∈ left, first.isAccessible passed = true →
    passed.simpleName < entry.simpleName → Outlasts second right passed other

/-- Some accessible class of `left` is left when the walk comes to the inaccessible `entry` of
`right`. -/
def IsToldOfSecond (first second : Catalogue) (left right : List ClassEntry) (entry : ClassEntry) :
    Prop :=
  ∃ other ∈ left, first.isAccessible other = true ∧
    ∀ passed ∈ right, second.isAccessible passed = true →
      passed.simpleName < entry.simpleName → passed.simpleName < other.simpleName

instance (second : Catalogue) (right : List ClassEntry) (passed other : ClassEntry) :
    Decidable (Outlasts second right passed other) :=
  inferInstanceAs (Decidable (_ ∧ _))

instance (first second : Catalogue) (left right : List ClassEntry) (entry : ClassEntry) :
    Decidable (IsToldOfFirst first second left right entry) :=
  inferInstanceAs (Decidable (∃ other ∈ right, _))

instance (first second : Catalogue) (left right : List ClassEntry) (entry : ClassEntry) :
    Decidable (IsToldOfSecond first second left right entry) :=
  inferInstanceAs (Decidable (∃ other ∈ left, _))

/-- The inaccessible ones among some classes of a catalogue. -/
def hidden (catalogue : Catalogue) (entries : List ClassEntry) : List ClassEntry :=
  entries.filter fun entry => !catalogue.isAccessible entry

/-- The inaccessible classes of the first list of which the log tells. -/
def toldOfFirst (first second : Catalogue) (left right : List ClassEntry) : List ClassEntry :=
  (hidden first left).filter (IsToldOfFirst first second left right)

/-- The inaccessible classes of the second list of which the log tells. -/
def toldOfSecond (first second : Catalogue) (left right : List ClassEntry) : List ClassEntry :=
  (hidden second right).filter (IsToldOfSecond first second left right)

/-! ## One step of the walk -/

theorem isToldOfFirst_skip_left (hl : first.isAccessible l = false) :
    IsToldOfFirst first second (l :: left) right entry ↔
      IsToldOfFirst first second left right entry := by
  simp [IsToldOfFirst, hl]

theorem isToldOfSecond_skip_left (hl : first.isAccessible l = false) :
    IsToldOfSecond first second (l :: left) right entry ↔
      IsToldOfSecond first second left right entry := by
  simp [IsToldOfSecond, hl]

theorem isToldOfSecond_skip_right (hr : second.isAccessible r = false) :
    IsToldOfSecond first second left (r :: right) entry ↔
      IsToldOfSecond first second left right entry := by
  simp [IsToldOfSecond, hr]

theorem Outlasts.behind {passed other : ClassEntry}
    (houtlasts : Outlasts second right passed other) :
    Outlasts second (r :: right) passed other := by
  obtain ⟨hlt, shown, hshown, hbetween⟩ := houtlasts
  exact ⟨hlt, shown, List.mem_cons_of_mem _ hshown, hbetween⟩

/-- A class that is not accessible, or not behind `passed`, holds nothing back. -/
theorem Outlasts.of_behind {passed other : ClassEntry}
    (houtlasts : Outlasts second (r :: right) passed other)
    (hr : second.isAccessible r = true → r.simpleName < passed.simpleName) :
    Outlasts second right passed other := by
  obtain ⟨hlt, shown, hshown, haccessible, hle, hge⟩ := houtlasts
  rcases List.mem_cons.mp hshown with rfl | hshown
  · exact absurd hle (hr haccessible).not_ge
  · exact ⟨hlt, shown, hshown, haccessible, hle, hge⟩

/-- If the head of the second list gives way before the accessible head of the first, the
rest of the second list tells what is left. -/
theorem isToldOfFirst_drop_right (hleft : AscendingBy ClassEntry.simpleName (l :: left))
    (hright : AscendingBy ClassEntry.simpleName (r :: right))
    (hl : first.isAccessible l = true) (hentry : l.simpleName < entry.simpleName)
    (hr : second.isAccessible r = true → r.simpleName < l.simpleName) :
    IsToldOfFirst first second (l :: left) (r :: right) entry ↔
      IsToldOfFirst first second (l :: left) right entry := by
  constructor
  · rintro ⟨other, hother, houtlasts⟩
    have hdrop : ∀ passed ∈ l :: left, first.isAccessible passed = true →
        passed.simpleName < entry.simpleName → Outlasts second right passed other := by
      intro passed hpassed haccessible hbefore
      exact (houtlasts passed hpassed haccessible hbefore).of_behind fun hshown =>
        (hr hshown).trans_le (hleft.le_of_mem hpassed)
    rcases List.mem_cons.mp hother with rfl | hother
    · -- nothing of the rest stands in front of its head
      obtain ⟨-, shown, hshown, -, -, hge⟩ := hdrop l List.mem_cons_self hl hentry
      exact absurd hge (hright.lt_of_mem hshown).not_ge
    · exact ⟨other, hother, hdrop⟩
  · rintro ⟨other, hother, houtlasts⟩
    exact ⟨other, List.mem_cons_of_mem _ hother, fun passed hpassed haccessible hbefore =>
      (houtlasts passed hpassed haccessible hbefore).behind⟩

theorem isToldOfFirst_reach_first (hright : AscendingBy ClassEntry.simpleName (r :: right))
    (hr : second.isAccessible r = true) (hlt : l.simpleName < r.simpleName) :
    IsToldOfFirst first second (l :: left) (r :: right) entry ↔
      IsToldOfFirst first second left (r :: right) entry := by
  constructor
  · rintro ⟨other, hother, houtlasts⟩
    exact ⟨other, hother, fun passed hpassed => houtlasts passed (List.mem_cons_of_mem _ hpassed)⟩
  · rintro ⟨other, hother, houtlasts⟩
    refine ⟨other, hother, List.forall_mem_cons.mpr ⟨fun _ _ => ?_, houtlasts⟩⟩
    have hle := hright.le_of_mem hother
    exact ⟨hlt.trans_le hle, r, List.mem_cons_self, hr, hlt.le, hle⟩

theorem isToldOfFirst_reach_both (hleft : AscendingBy ClassEntry.simpleName (l :: left))
    (hright : AscendingBy ClassEntry.simpleName (r :: right))
    (hl : first.isAccessible l = true) (hr : second.isAccessible r = true)
    (heq : l.simpleName = r.simpleName) (hentry : l.simpleName < entry.simpleName) :
    IsToldOfFirst first second (l :: left) (r :: right) entry ↔
      IsToldOfFirst first second left right entry := by
  constructor
  · rintro ⟨other, hother, houtlasts⟩
    obtain ⟨hlt, -⟩ := houtlasts l List.mem_cons_self hl hentry
    rcases List.mem_cons.mp hother with rfl | hother
    · exact absurd heq hlt.ne
    · refine ⟨other, hother, fun passed hpassed haccessible hbefore => ?_⟩
      have hlater := houtlasts passed (List.mem_cons_of_mem _ hpassed) haccessible hbefore
      exact hlater.of_behind fun _ => heq ▸ hleft.lt_of_mem hpassed
  · rintro ⟨other, hother, houtlasts⟩
    refine ⟨other, List.mem_cons_of_mem _ hother, List.forall_mem_cons.mpr
      ⟨fun _ _ => ?_, fun passed hpassed haccessible hbefore =>
        (houtlasts passed hpassed haccessible hbefore).behind⟩⟩
    have hlt := hright.lt_of_mem hother
    exact ⟨heq ▸ hlt, r, List.mem_cons_self, hr, heq.le, hlt.le⟩

/-- If the accessible head of the first list gives way not behind that of the second, the rest
of the first list tells what is left. -/
theorem isToldOfSecond_drop_left (hr : second.isAccessible r = true)
    (hentry : r.simpleName < entry.simpleName) (hle : l.simpleName ≤ r.simpleName) :
    IsToldOfSecond first second (l :: left) (r :: right) entry ↔
      IsToldOfSecond first second left (r :: right) entry := by
  constructor
  · rintro ⟨other, hother, haccessible, hpasses⟩
    rcases List.mem_cons.mp hother with rfl | hother
    · exact absurd (hpasses r List.mem_cons_self hr hentry) hle.not_gt
    · exact ⟨other, hother, haccessible, hpasses⟩
  · rintro ⟨other, hother, hrest⟩
    exact ⟨other, List.mem_cons_of_mem _ hother, hrest⟩

theorem isToldOfSecond_drop_right
    (hbefore : ∀ other ∈ left, r.simpleName < other.simpleName) :
    IsToldOfSecond first second left (r :: right) entry ↔
      IsToldOfSecond first second left right entry := by
  constructor
  · rintro ⟨other, hother, haccessible, hpasses⟩
    exact ⟨other, hother, haccessible, fun passed hpassed =>
      hpasses passed (List.mem_cons_of_mem _ hpassed)⟩
  · rintro ⟨other, hother, haccessible, hpasses⟩
    exact ⟨other, hother, haccessible,
      List.forall_mem_cons.mpr ⟨fun _ _ => hbefore other hother, hpasses⟩⟩

/-! ## The whole walk -/

theorem mem_of_mem_hidden {catalogue : Catalogue} {entries : List ClassEntry}
    (hentry : entry ∈ hidden catalogue entries) : entry ∈ entries :=
  List.mem_of_mem_filter hentry

theorem hidden_cons_of_accessible {catalogue : Catalogue}
    (hentry : catalogue.isAccessible entry = true) (rest : List ClassEntry) :
    hidden catalogue (entry :: rest) = hidden catalogue rest :=
  List.filter_cons_of_neg (by simp [hentry])

theorem hidden_cons_of_hidden {catalogue : Catalogue}
    (hentry : catalogue.isAccessible entry = false) (rest : List ClassEntry) :
    hidden catalogue (entry :: rest) = entry :: hidden catalogue rest :=
  List.filter_cons_of_pos (by simp [hentry])

theorem lt_of_mem_hidden {catalogue : Catalogue} {head : ClassEntry} {rest : List ClassEntry}
    (hascending : AscendingBy ClassEntry.simpleName (head :: rest))
    (hhead : catalogue.isAccessible head = true)
    (hentry : entry ∈ hidden catalogue (head :: rest)) : head.simpleName < entry.simpleName := by
  rw [hidden_cons_of_accessible hhead] at hentry
  exact hascending.lt_of_mem (mem_of_mem_hidden hentry)

theorem toldOfFirst_eq {others rest : List ClassEntry}
    (hhidden : hidden first left = hidden first others)
    (hsame : ∀ entry ∈ hidden first left, IsToldOfFirst first second left right entry ↔
      IsToldOfFirst first second others rest entry) :
    toldOfFirst first second left right = toldOfFirst first second others rest := by
  rw [toldOfFirst, toldOfFirst, ← hhidden]
  exact List.filter_congr fun entry hentry => decide_eq_decide.mpr (hsame entry hentry)

theorem toldOfSecond_eq {others rest : List ClassEntry}
    (hhidden : hidden second right = hidden second rest)
    (hsame : ∀ entry ∈ hidden second right, IsToldOfSecond first second left right entry ↔
      IsToldOfSecond first second others rest entry) :
    toldOfSecond first second left right = toldOfSecond first second others rest := by
  rw [toldOfSecond, toldOfSecond, ← hhidden]
  exact List.filter_congr fun entry hentry => decide_eq_decide.mpr (hsame entry hentry)

theorem toldOfFirst_skip (hleft : AscendingBy ClassEntry.simpleName (l :: left))
    (hl : first.isAccessible l = false) :
    toldOfFirst first second (l :: left) (r :: right) =
      l :: toldOfFirst first second left (r :: right) := by
  have hhead : IsToldOfFirst first second (l :: left) (r :: right) l := by
    refine ⟨r, List.mem_cons_self, fun passed hpassed _ hbefore => ?_⟩
    exact absurd hbefore (hleft.le_of_mem hpassed).not_gt
  rw [toldOfFirst, hidden_cons_of_hidden hl, List.filter_cons_of_pos (by simpa using hhead)]
  exact congrArg _ (List.filter_congr fun entry _ =>
    decide_eq_decide.mpr (isToldOfFirst_skip_left hl))

theorem toldOfSecond_skip (hright : AscendingBy ClassEntry.simpleName (r :: right))
    (hl : first.isAccessible l = true) (hr : second.isAccessible r = false) :
    toldOfSecond first second (l :: left) (r :: right) =
      r :: toldOfSecond first second (l :: left) right := by
  have hhead : IsToldOfSecond first second (l :: left) (r :: right) r := by
    refine ⟨l, List.mem_cons_self, hl, fun passed hpassed _ hbefore => ?_⟩
    exact absurd hbefore (hright.le_of_mem hpassed).not_gt
  rw [toldOfSecond, hidden_cons_of_hidden hr, List.filter_cons_of_pos (by simpa using hhead)]
  exact congrArg _ (List.filter_congr fun entry _ =>
    decide_eq_decide.mpr (isToldOfSecond_skip_right hr))

theorem toldOfFirst_nil (first second : Catalogue) (left : List ClassEntry) :
    toldOfFirst first second left [] = [] :=
  List.filter_eq_nil_iff.mpr fun entry _ => by simp [IsToldOfFirst]

theorem toldOfSecond_nil (first second : Catalogue) (right : List ClassEntry) :
    toldOfSecond first second [] right = [] :=
  List.filter_eq_nil_iff.mpr fun entry _ => by simp [IsToldOfSecond]

/-- The class that a step passes over, if it passes over one. -/
def Step.skipped? : Step → Option ClassEntry
  | skip entry => some entry
  | reach _ => none

/-- What the walk passes over one by one are the classes of which the log tells. -/
theorem filterMap_skipped?_walk (hleft : AscendingBy ClassEntry.simpleName left)
    (hright : AscendingBy ClassEntry.simpleName right) :
    ((walk first second left right).filterMap Step.skipped?).Perm
      (toldOfFirst first second left right ++ toldOfSecond first second left right) := by
  fun_induction walk first second left right with
  | case1 right =>
      rw [toldOfSecond_nil]
      simp [List.filterMap_map, Function.comp_def, Step.skipped?, toldOfFirst, hidden]
  | case2 left _ =>
      rw [toldOfFirst_nil]
      simp [List.filterMap_map, Function.comp_def, Step.skipped?, toldOfSecond, hidden]
  | case3 l left r right hl ih =>
      have hl : first.isAccessible l = false := by simpa using hl
      rw [toldOfFirst_skip hleft hl, toldOfSecond_eq rfl fun entry _ => isToldOfSecond_skip_left hl]
      exact (ih hleft.tail hright).cons l
  | case4 l left r right hl hr ih =>
      have hl : first.isAccessible l = true := by simpa using hl
      have hr : second.isAccessible r = false := by simpa using hr
      rw [toldOfSecond_skip hright hl hr, toldOfFirst_eq rfl fun entry hentry =>
        isToldOfFirst_drop_right hleft hright hl (lt_of_mem_hidden hleft hl hentry) fun hshown =>
          absurd hshown (hr ▸ Bool.false_ne_true)]
      exact ((ih hleft hright.tail).cons r).trans List.perm_middle.symm
  | case5 l left r right hl hr horder ih =>
      have hl : first.isAccessible l = true := by simpa using hl
      have hr : second.isAccessible r = true := by simpa using hr
      have hlt : l.simpleName < r.simpleName := ordinal_eq_lt_iff.mp horder
      rw [toldOfFirst_eq (hidden_cons_of_accessible hl left) fun entry _ =>
          isToldOfFirst_reach_first hright hr hlt,
        toldOfSecond_eq rfl fun entry hentry =>
          isToldOfSecond_drop_left hr (lt_of_mem_hidden hright hr hentry) hlt.le]
      exact ih hleft.tail hright
  | case6 l left r right hl hr horder ih =>
      have hl : first.isAccessible l = true := by simpa using hl
      have hr : second.isAccessible r = true := by simpa using hr
      have hgt : r.simpleName < l.simpleName := ordinal_eq_gt_iff.mp horder
      rw [toldOfFirst_eq rfl fun entry hentry =>
          isToldOfFirst_drop_right hleft hright hl (lt_of_mem_hidden hleft hl hentry) fun _ => hgt,
        toldOfSecond_eq (hidden_cons_of_accessible hr right) fun entry _ =>
          isToldOfSecond_drop_right fun other hother => hgt.trans_le (hleft.le_of_mem hother)]
      exact ih hleft hright.tail
  | case7 l left r right hl hr horder ih =>
      have hl : first.isAccessible l = true := by simpa using hl
      have hr : second.isAccessible r = true := by simpa using hr
      have heq : l.simpleName = r.simpleName := ordinal_eq_eq_iff.mp horder
      have hbehind : ∀ other ∈ left, r.simpleName < other.simpleName :=
        fun other hother => heq ▸ hleft.lt_of_mem hother
      rw [toldOfFirst_eq (hidden_cons_of_accessible hl left) fun entry hentry =>
          isToldOfFirst_reach_both hleft hright hl hr heq (lt_of_mem_hidden hleft hl hentry),
        toldOfSecond_eq (hidden_cons_of_accessible hr right) fun entry hentry =>
          (isToldOfSecond_drop_left hr (lt_of_mem_hidden hright hr hentry) heq.le).trans
            (isToldOfSecond_drop_right hbehind)]
      exact ih hleft.tail hright.tail

/-! ## Where the silence begins -/

theorem isPrefix_filter_of_pairwise {entries : List ClassEntry} {told : ClassEntry → Bool}
    (hclosed : entries.Pairwise fun earlier later => told later = true → told earlier = true) :
    entries.filter told <+: entries := by
  induction entries with
  | nil => exact List.nil_prefix
  | cons entry rest ih =>
      obtain ⟨hhead, hrest⟩ := List.pairwise_cons.mp hclosed
      by_cases htold : told entry = true
      · rw [List.filter_cons_of_pos htold]
        exact (List.prefix_cons_inj entry).mpr (ih hrest)
      · have hnone : rest.filter told = [] :=
          List.filter_eq_nil_iff.mpr fun later hlater htoldLater =>
            htold (hhead later hlater htoldLater)
        rw [List.filter_cons_of_neg htold, hnone]
        exact List.nil_prefix

theorem isPrefix_toldOfFirst (hleft : AscendingBy ClassEntry.simpleName left) :
    toldOfFirst first second left right <+: hidden first left := by
  refine isPrefix_filter_of_pairwise ((hleft.filter _).imp fun {earlier later} hlt htold => ?_)
  obtain ⟨other, hother, houtlasts⟩ := of_decide_eq_true htold
  exact decide_eq_true ⟨other, hother, fun passed hpassed haccessible hbefore =>
    houtlasts passed hpassed haccessible (hbefore.trans hlt)⟩

theorem isPrefix_toldOfSecond (hright : AscendingBy ClassEntry.simpleName right) :
    toldOfSecond first second left right <+: hidden second right := by
  refine isPrefix_filter_of_pairwise ((hright.filter _).imp fun {earlier later} hlt htold => ?_)
  obtain ⟨other, hother, haccessible, hpasses⟩ := of_decide_eq_true htold
  exact decide_eq_true ⟨other, hother, haccessible, fun passed hpassed hshown hbefore =>
    hpasses passed hpassed hshown (hbefore.trans hlt)⟩

/-- Of one list at least every inaccessible class is told of. -/
theorem told_of_one (first second : Catalogue) (left right : List ClassEntry) :
    toldOfFirst first second left right = hidden first left ∨
      toldOfSecond first second left right = hidden second right := by
  by_cases hall : ∀ entry ∈ hidden second right, IsToldOfSecond first second left right entry
  · exact Or.inr (List.filter_eq_self.mpr fun entry hentry => decide_eq_true (hall entry hentry))
  · push Not at hall
    obtain ⟨silent, hsilent, huntold⟩ := hall
    -- behind every accessible class of the first list stands one of the second, before `silent`
    have hshown : ∀ passed ∈ left, first.isAccessible passed = true →
        Outlasts second right passed silent := by
      intro passed hpassed haccessible
      by_contra hnot
      refine huntold ⟨passed, hpassed, haccessible, fun shown hshown hshownAccessible hbefore => ?_⟩
      by_contra hge
      rw [not_lt] at hge
      exact hnot ⟨hge.trans_lt hbefore, shown, hshown, hshownAccessible, hge, hbefore.le⟩
    refine Or.inl (List.filter_eq_self.mpr fun entry _ => decide_eq_true ?_)
    exact ⟨silent, mem_of_mem_hidden hsilent, fun passed hpassed haccessible _ =>
      hshown passed hpassed haccessible⟩

/-! ## The notes in the log -/

/-- What the log tells of a class that is passed over. -/
def skipNote (entry : ClassEntry) : Log.Entry :=
  Log.noted .trace .comparison "skipping inaccessible class"
    [("class_name", .text entry.simpleName)]

def isSkipNote (entry : Log.Entry) : Bool :=
  entry.message == some "skipping inaccessible class"

theorem filter_isSkipNote_log (sensitivity : Sensitivity) (first second : Catalogue)
    {heard : Event → List Log.Entry}
    (hheard : ∀ event, ∀ entry ∈ heard event, isSkipNote entry = false) :
    (log sensitivity first second heard).filter isSkipNote =
      ((steps first second).filterMap Step.skipped?).map skipNote := by
  have hsteps : ∀ walked : List Step,
      (walked.flatMap (Step.log sensitivity first second heard)).filter isSkipNote =
        (walked.filterMap Step.skipped?).map skipNote := by
    intro walked
    induction walked with
    | nil => rfl
    | cons step rest ih =>
        rw [List.flatMap_cons, List.filter_append, ih]
        cases step with
        | skip entry => rfl
        | reach place =>
            have hnone : (Step.log sensitivity first second heard (.reach place)).filter
                isSkipNote = [] := by
              refine List.filter_eq_nil_iff.mpr fun entry hentry => ?_
              obtain ⟨event, -, hevent⟩ := List.mem_flatMap.mp hentry
              rw [hheard event entry hevent]
              exact Bool.false_ne_true
            rw [hnone]
            rfl
  have hend : ∀ count, [Log.finished .comparison operation
      [("differences", .count count)]].filter isSkipNote = [] := fun _ => rfl
  rw [log, List.cons_append, List.filter_cons_of_neg Bool.false_ne_true, List.filter_append, hsteps,
    hend, List.append_nil]

/-- **Main statement.**  Whoever listens to a comparison, the log holds one note for each
inaccessible class that comes up while the other catalogue has classes left, and no other
note.  These are the first ones of each catalogue's inaccessible classes, and of one catalogue
they are all; the others are passed over in silence. -/
theorem skips_told (sensitivity : Sensitivity) (first second : Catalogue)
    (heard : Event → List Log.Entry)
    (hheard : ∀ event, ∀ entry ∈ heard event, isSkipNote entry = false) :
    let told := toldOfFirst first second first.entries second.entries
    let toldThen := toldOfSecond first second first.entries second.entries
    ((log sensitivity first second heard).filter isSkipNote).Perm
      ((told ++ toldThen).map skipNote) ∧
    told <+: hidden first first.entries ∧ toldThen <+: hidden second second.entries ∧
    (told = hidden first first.entries ∨ toldThen = hidden second second.entries) := by
  intro told toldThen
  have hfirst := first.ascendingBy_entries
  have hsecond := second.ascendingBy_entries
  refine ⟨?_, isPrefix_toldOfFirst hfirst, isPrefix_toldOfSecond hsecond, told_of_one _ _ _ _⟩
  rw [filter_isSkipNote_log sensitivity first second hheard]
  exact (filterMap_skipped?_walk hfirst hsecond).map skipNote

/-- A report listens without notes of this kind. -/
theorem isSkipNote_warnings (style : ReportStyle) (event : Event) :
    ∀ entry ∈ style.warnings event, isSkipNote entry = false := by
  intro entry hentry
  unfold ReportStyle.warnings at hentry
  split at hentry
  · obtain ⟨property, -, hwarning⟩ := List.mem_flatMap.mp hentry
    unfold Simplifier.warnings at hwarning
    split at hwarning
    · exact nomatch hwarning
    · rw [List.mem_singleton.mp hwarning]
      rfl
  · exact nomatch hentry
  · exact nomatch hentry

/-- A catalogue with one activity, and with classes that are none. -/
def menuAnd (others : List String) : Catalogue :=
  others.foldl
    (fun catalogue name => catalogue.register "App" { fullName := name, isPublic := true })
    ((Catalogue.empty (.ofList ["Root"])).register "App"
      { fullName := "Acme.Menu", isPublic := true, baseTypeFullName := "Root" })

/-- What comes up before the activity that both show is told of, what comes up behind it is
not. -/
theorem skips_told_around_menu :
    (∀ event, ∀ entry ∈ (ReportStyle.mk .typedLoose (.ofNamespaces ["System"])).warnings event,
      isSkipNote entry = false) ∧
    ∃ told toldThen : List ClassEntry,
      ((log .typedLoose (menuAnd ["Acme.About", "Acme.Window"]) (menuAnd ["Acme.Icon"])
        (ReportStyle.mk .typedLoose (.ofNamespaces ["System"])).warnings).filter isSkipNote).Perm
          ((told ++ toldThen).map skipNote) ∧
      told.map ClassEntry.simpleName = ["Acme.About"] ∧
      toldThen.map ClassEntry.simpleName = ["Acme.Icon"] := by
  have hheard := isSkipNote_warnings ⟨.typedLoose, .ofNamespaces ["System"]⟩
  obtain ⟨hperm, -⟩ := skips_told .typedLoose (menuAnd ["Acme.About", "Acme.Window"])
    (menuAnd ["Acme.Icon"]) _ hheard
  exact ⟨hheard, _, _, hperm, by decide +kernel, by decide +kernel⟩

theorem skip_untold :
    ∃ entry ∈ (menuAnd ["Acme.About", "Acme.Window"]).entries,
      (menuAnd ["Acme.About", "Acme.Window"]).isAccessible entry = false ∧
      skipNote entry ∉ log .typedLoose (menuAnd ["Acme.About", "Acme.Window"])
        (menuAnd ["Acme.Icon"]) fun _ => [] := by
  decide +kernel

end Comparison

end ActivityCatalogue
