import Mathlib
import ActivityCatalogue.Alignment

/-!
# What an alignment shows

`align` goes through two lists by the names of their entries.  If both lists
ascend strictly by name, so does the alignment (`pairwise_key_align`), and each
of its places tells the truth about both lists (`fits_of_mem_align`): an entry
stands alone only if the other list has none of its name, and two entries stand
together only if they have the same name.

Together with `filterMap_first?_align` and `filterMap_second?_align` this makes
the places of an alignment the union of the names of both lists, each once.
-/

namespace ActivityCatalogue

/-! ## Ordinal comparison of names -/

theorem ordinal_eq_lt_iff {first second : String} :
    ordinal first second = .lt ↔ first < second := by
  unfold ordinal
  split_ifs with hlt heq <;> simp [hlt]

theorem ordinal_eq_eq_iff {first second : String} :
    ordinal first second = .eq ↔ first = second := by
  unfold ordinal
  split_ifs with hlt heq
  · simpa using hlt.ne
  · simpa using heq
  · simpa using heq

theorem ordinal_eq_gt_iff {first second : String} :
    ordinal first second = .gt ↔ second < first := by
  unfold ordinal
  split_ifs with hlt heq
  · exact ⟨nofun, fun hgt => absurd hgt hlt.asymm⟩
  · simp [heq]
  · simpa using lt_of_le_of_ne (not_lt.mp hlt) (Ne.symm heq)

variable {α β : Type}

theorem align_nil_right (order : α → β → Ordering) (first : List α) :
    align order first [] = first.map .first := by
  cases first with
  | nil => simp [align]
  | cons l first => simp [align]

theorem mem_of_first?_align {order : α → β → Ordering} {first : List α} {second : List β}
    {place : Aligned α β} {l : α} (hplace : place ∈ align order first second)
    (hl : place.first? = some l) : l ∈ first := by
  rw [← filterMap_first?_align order first second]
  exact List.mem_filterMap.mpr ⟨place, hplace, hl⟩

theorem mem_of_second?_align {order : α → β → Ordering} {first : List α} {second : List β}
    {place : Aligned α β} {r : β} (hplace : place ∈ align order first second)
    (hr : place.second? = some r) : r ∈ second := by
  rw [← filterMap_second?_align order first second]
  exact List.mem_filterMap.mpr ⟨place, hplace, hr⟩

/-- Two entries stand together only if they compare equal, in lists of any order. -/
theorem eq_of_both_mem_align {order : α → β → Ordering} {first : List α}
    {second : List β} {l : α} {r : β} (hboth : .both l r ∈ align order first second) :
    order l r = .eq := by
  fun_induction align order first second with
  | case1 second => simp at hboth
  | case2 first _ => simp at hboth
  | case3 _ first _ second _ ih => exact ih (by simpa using hboth)
  | case4 _ first _ second _ ih => exact ih (by simpa using hboth)
  | case5 head first other second horder ih =>
      rcases List.mem_cons.mp hboth with heq | hrest
      · obtain ⟨rfl, rfl⟩ := Aligned.both.inj heq
        exact horder
      · exact ih hrest

/-! ## Alignment by names -/

section

variable (nameOfFirst : α → String) (nameOfSecond : β → String)

/-- The order that compares the entries of two lists by their names. -/
def byName (l : α) (r : β) : Ordering := ordinal (nameOfFirst l) (nameOfSecond r)

/-- The entries ascend strictly by their names. -/
def AscendingBy (name : α → String) (entries : List α) : Prop :=
  entries.Pairwise fun earlier later => name earlier < name later

/-- The name that stands at a place. -/
def Aligned.key : Aligned α β → String
  | first l => nameOfFirst l
  | second r => nameOfSecond r
  | both l _ => nameOfFirst l

/-- What stands at a place is all that the two lists have under one name. -/
def Aligned.Fits (first : List α) (second : List β) : Aligned α β → Prop
  | .first l => l ∈ first ∧ ∀ r ∈ second, nameOfFirst l ≠ nameOfSecond r
  | .second r => r ∈ second ∧ ∀ l ∈ first, nameOfFirst l ≠ nameOfSecond r
  | .both l r => l ∈ first ∧ r ∈ second ∧ nameOfFirst l = nameOfSecond r

variable {nameOfFirst nameOfSecond}

theorem AscendingBy.lt_of_mem {name : α → String} {entry other : α} {rest : List α}
    (hascending : AscendingBy name (entry :: rest)) (hother : other ∈ rest) :
    name entry < name other :=
  (List.pairwise_cons.mp hascending).1 other hother

theorem AscendingBy.tail {name : α → String} {entry : α} {rest : List α}
    (hascending : AscendingBy name (entry :: rest)) : AscendingBy name rest :=
  (List.pairwise_cons.mp hascending).2

theorem AscendingBy.le_of_mem {name : α → String} {entry other : α} {rest : List α}
    (hascending : AscendingBy name (entry :: rest)) (hother : other ∈ entry :: rest) :
    name entry ≤ name other := by
  rcases List.mem_cons.mp hother with rfl | hrest
  · exact le_rfl
  · exact (hascending.lt_of_mem hrest).le

/-- The bound that lets a place come before all places of the remaining lists. -/
theorem lt_key_of_fits {bound : String} {first : List α} {second : List β}
    (hfirst : ∀ l ∈ first, bound < nameOfFirst l) (hsecond : ∀ r ∈ second, bound < nameOfSecond r)
    {place : Aligned α β} (hfits : place.Fits nameOfFirst nameOfSecond first second) :
    bound < place.key nameOfFirst nameOfSecond := by
  cases place with
  | first l => exact hfirst l hfits.1
  | second r => exact hsecond r hfits.1
  | both l r => exact hfirst l hfits.1

/-- A place still fits after both lists have grown by entries of other names. -/
theorem Aligned.Fits.grow {first larger : List α} {second wider : List β} {place : Aligned α β}
    (hfits : place.Fits nameOfFirst nameOfSecond first second)
    (hfirst : first ⊆ larger) (hsecond : second ⊆ wider)
    (hlarger : ∀ l ∈ larger, l ∈ first ∨ ∀ r ∈ second, nameOfFirst l ≠ nameOfSecond r)
    (hwider : ∀ r ∈ wider, r ∈ second ∨ ∀ l ∈ first, nameOfFirst l ≠ nameOfSecond r) :
    place.Fits nameOfFirst nameOfSecond larger wider := by
  cases place with
  | first l =>
      refine ⟨hfirst hfits.1, fun r hr => ?_⟩
      rcases hwider r hr with hold | hnew
      · exact hfits.2 r hold
      · exact hnew l hfits.1
  | second r =>
      refine ⟨hsecond hfits.1, fun l hl => ?_⟩
      rcases hlarger l hl with hold | hnew
      · exact hfits.2 l hold
      · exact hnew r hfits.1
  | both l r => exact ⟨hfirst hfits.1, hsecond hfits.2.1, hfits.2.2⟩

/-- Every place of an alignment shows all that the two lists have under its name. -/
theorem fits_of_mem_align {first : List α} {second : List β}
    (hfirst : AscendingBy nameOfFirst first) (hsecond : AscendingBy nameOfSecond second)
    {place : Aligned α β} (hplace : place ∈ align (byName nameOfFirst nameOfSecond) first second) :
    place.Fits nameOfFirst nameOfSecond first second := by
  fun_induction align (byName nameOfFirst nameOfSecond) first second with
  | case1 second =>
      obtain ⟨r, hr, rfl⟩ := List.mem_map.mp hplace
      exact ⟨hr, fun _ hnone => absurd hnone List.not_mem_nil⟩
  | case2 first _ =>
      obtain ⟨l, hl, rfl⟩ := List.mem_map.mp hplace
      exact ⟨hl, fun _ hnone => absurd hnone List.not_mem_nil⟩
  | case3 l first r second horder ih =>
      -- the lesser head is below all of the other list
      have hlt : nameOfFirst l < nameOfSecond r := ordinal_eq_lt_iff.mp horder
      have halone : ∀ other ∈ r :: second, nameOfFirst l ≠ nameOfSecond other :=
        fun other hother => (hlt.trans_le (hsecond.le_of_mem hother)).ne
      rcases List.mem_cons.mp hplace with rfl | hrest
      · exact ⟨List.mem_cons_self, halone⟩
      · refine (ih hfirst.tail hsecond hrest).grow (List.subset_cons_self _ _)
          (List.Subset.refl _) ?_ fun _ => Or.inl
        exact List.forall_mem_cons.mpr ⟨Or.inr halone, fun _ => Or.inl⟩
  | case4 l first r second horder ih =>
      have hlt : nameOfSecond r < nameOfFirst l := ordinal_eq_gt_iff.mp horder
      have halone : ∀ other ∈ l :: first, nameOfFirst other ≠ nameOfSecond r :=
        fun other hother => (hlt.trans_le (hfirst.le_of_mem hother)).ne'
      rcases List.mem_cons.mp hplace with rfl | hrest
      · exact ⟨List.mem_cons_self, halone⟩
      · refine (ih hfirst hsecond.tail hrest).grow (List.Subset.refl _)
          (List.subset_cons_self _ _) (fun _ => Or.inl) ?_
        exact List.forall_mem_cons.mpr ⟨Or.inr halone, fun _ => Or.inl⟩
  | case5 l first r second horder ih =>
      have heq : nameOfFirst l = nameOfSecond r := ordinal_eq_eq_iff.mp horder
      rcases List.mem_cons.mp hplace with rfl | hrest
      · exact ⟨List.mem_cons_self, List.mem_cons_self, heq⟩
      · refine (ih hfirst.tail hsecond.tail hrest).grow (List.subset_cons_self _ _)
          (List.subset_cons_self _ _) ?_ ?_
        · refine List.forall_mem_cons.mpr ⟨Or.inr fun other hother => ?_, fun _ => Or.inl⟩
          exact heq ▸ (hsecond.lt_of_mem hother).ne
        · refine List.forall_mem_cons.mpr ⟨Or.inr fun other hother => ?_, fun _ => Or.inl⟩
          exact heq ▸ (hfirst.lt_of_mem hother).ne'

/-- The names of an alignment ascend strictly. -/
theorem pairwise_key_align {first : List α} {second : List β}
    (hfirst : AscendingBy nameOfFirst first) (hsecond : AscendingBy nameOfSecond second) :
    AscendingBy (Aligned.key nameOfFirst nameOfSecond)
      (align (byName nameOfFirst nameOfSecond) first second) := by
  fun_induction align (byName nameOfFirst nameOfSecond) first second with
  | case1 second => exact List.pairwise_map.mpr hsecond
  | case2 first _ => exact List.pairwise_map.mpr hfirst
  | case3 l first r second horder ih =>
      have hlt : nameOfFirst l < nameOfSecond r := ordinal_eq_lt_iff.mp horder
      refine List.pairwise_cons.mpr ⟨fun place hplace => ?_, ih hfirst.tail hsecond⟩
      exact lt_key_of_fits (fun _ => hfirst.lt_of_mem)
        (fun _ hother => hlt.trans_le (hsecond.le_of_mem hother))
        (fits_of_mem_align hfirst.tail hsecond hplace)
  | case4 l first r second horder ih =>
      have hlt : nameOfSecond r < nameOfFirst l := ordinal_eq_gt_iff.mp horder
      refine List.pairwise_cons.mpr ⟨fun place hplace => ?_, ih hfirst hsecond.tail⟩
      exact lt_key_of_fits (fun _ hother => hlt.trans_le (hfirst.le_of_mem hother))
        (fun _ => hsecond.lt_of_mem) (fits_of_mem_align hfirst hsecond.tail hplace)
  | case5 l first r second horder ih =>
      have heq : nameOfFirst l = nameOfSecond r := ordinal_eq_eq_iff.mp horder
      refine List.pairwise_cons.mpr ⟨fun place hplace => ?_, ih hfirst.tail hsecond.tail⟩
      exact lt_key_of_fits (fun _ => hfirst.lt_of_mem)
        (fun _ hother => heq.trans_lt (hsecond.lt_of_mem hother))
        (fits_of_mem_align hfirst.tail hsecond.tail hplace)

/-! ## Reading a place back -/

theorem AscendingBy.nodup_names {name : α → String} {entries : List α}
    (hascending : AscendingBy name entries) : (entries.map name).Nodup :=
  List.pairwise_map.mpr (hascending.imp fun hlt => hlt.ne)

theorem AscendingBy.eq_of_name_eq {name : α → String} {entries : List α}
    (hascending : AscendingBy name entries) {entry other : α} (hentry : entry ∈ entries)
    (hother : other ∈ entries) (hname : name entry = name other) : entry = other :=
  List.inj_on_of_nodup_map hascending.nodup_names hentry hother hname

/-- A place shows the entry that the first list has under its name. -/
theorem Aligned.Fits.first?_eq_some_iff {first : List α} {second : List β} {place : Aligned α β}
    (hfits : place.Fits nameOfFirst nameOfSecond first second)
    (hfirst : AscendingBy nameOfFirst first) {l : α} :
    place.first? = some l ↔ l ∈ first ∧ nameOfFirst l = place.key nameOfFirst nameOfSecond := by
  cases place with
  | first other =>
      rw [first?, Option.some_inj]
      constructor
      · rintro rfl
        exact ⟨hfits.1, rfl⟩
      · exact fun hl => hfirst.eq_of_name_eq hfits.1 hl.1 hl.2.symm
  | second r =>
      rw [first?]
      refine ⟨fun hnone => absurd hnone (Option.some_ne_none l).symm, fun hl => ?_⟩
      exact absurd hl.2 (hfits.2 l hl.1)
  | both other r =>
      rw [first?, Option.some_inj]
      constructor
      · rintro rfl
        exact ⟨hfits.1, rfl⟩
      · exact fun hl => hfirst.eq_of_name_eq hfits.1 hl.1 hl.2.symm

/-- A place shows the entry that the second list has under its name. -/
theorem Aligned.Fits.second?_eq_some_iff {first : List α} {second : List β} {place : Aligned α β}
    (hfits : place.Fits nameOfFirst nameOfSecond first second)
    (hsecond : AscendingBy nameOfSecond second) {r : β} :
    place.second? = some r ↔ r ∈ second ∧ nameOfSecond r = place.key nameOfFirst nameOfSecond := by
  cases place with
  | first l =>
      rw [second?]
      refine ⟨fun hnone => absurd hnone (Option.some_ne_none r).symm, fun hr => ?_⟩
      exact absurd hr.2.symm (hfits.2 r hr.1)
  | second other =>
      rw [second?, Option.some_inj]
      constructor
      · rintro rfl
        exact ⟨hfits.1, rfl⟩
      · exact fun hr => hsecond.eq_of_name_eq hfits.1 hr.1 hr.2.symm
  | both l other =>
      rw [second?, Option.some_inj]
      constructor
      · rintro rfl
        exact ⟨hfits.2.1, hfits.2.2.symm⟩
      · exact fun hr =>
          hsecond.eq_of_name_eq hfits.2.1 hr.1 (hfits.2.2.symm.trans hr.2.symm)

/-- Two entries stand together exactly if they have the same name. -/
theorem both_mem_align_iff {first : List α} {second : List β}
    (hfirst : AscendingBy nameOfFirst first) (hsecond : AscendingBy nameOfSecond second)
    {l : α} {r : β} :
    .both l r ∈ align (byName nameOfFirst nameOfSecond) first second ↔
      l ∈ first ∧ r ∈ second ∧ nameOfFirst l = nameOfSecond r := by
  constructor
  · exact fun hboth => fits_of_mem_align hfirst hsecond hboth
  · rintro ⟨hl, hr, hname⟩
    -- the place that shows the one entry shows the other one as well
    rw [← filterMap_first?_align (byName nameOfFirst nameOfSecond) first second] at hl
    obtain ⟨place, hplace, hshown⟩ := List.mem_filterMap.mp hl
    have hfits := fits_of_mem_align hfirst hsecond hplace
    have hkey := ((hfits.first?_eq_some_iff hfirst).mp hshown).2
    have hother := (hfits.second?_eq_some_iff hsecond).mpr ⟨hr, hname.symm.trans hkey⟩
    cases place with
    | first entry => exact nomatch hother
    | second entry => exact nomatch hshown
    | both entry other =>
        obtain rfl := Option.some.inj hshown
        obtain rfl := Option.some.inj hother
        exact hplace

/-- Entries of different names are found by their names. -/
theorem AscendingBy.find?_name {name : α → String} {entries : List α}
    (hascending : AscendingBy name entries) {entry : α} (hentry : entry ∈ entries) :
    (entries.find? fun other => name other == name entry) = some entry := by
  cases hfound : entries.find? fun other => name other == name entry with
  | none =>
      have hnot := List.find?_eq_none.mp hfound entry hentry
      simp at hnot
  | some other =>
      have hname : name other = name entry := by simpa using List.find?_some hfound
      have hother : other ∈ entries := List.mem_of_find?_eq_some hfound
      rw [hascending.eq_of_name_eq hother hentry hname]

end

/-! ## Exchanging the lists -/

theorem ordinal_swap (first second : String) :
    (ordinal first second).swap = ordinal second first := by
  cases hordinal : ordinal first second with
  | lt => exact (ordinal_eq_gt_iff.mpr (ordinal_eq_lt_iff.mp hordinal)).symm
  | eq => exact (ordinal_eq_eq_iff.mpr (ordinal_eq_eq_iff.mp hordinal).symm).symm
  | gt => exact (ordinal_eq_lt_iff.mpr (ordinal_eq_gt_iff.mp hordinal)).symm

/-- A place with the two lists exchanged. -/
def Aligned.exchanged : Aligned α β → Aligned β α
  | first l => second l
  | second r => first r
  | both l r => both r l

/-- Two lists are gone through in the same way if they are exchanged, in any order. -/
theorem align_exchanged {order : α → β → Ordering} {back : β → α → Ordering}
    (hback : ∀ l r, (order l r).swap = back r l) (first : List α) (second : List β) :
    align back second first = (align order first second).map Aligned.exchanged := by
  fun_induction align order first second with
  | case1 second =>
      rw [align_nil_right, List.map_map]
      rfl
  | case2 first _ =>
      rw [align, List.map_map]
      rfl
  | case3 l first r second horder ih =>
      have hgreater : back r l = .gt := by rw [← hback, horder]; rfl
      rw [align, hgreater, List.map_cons, ← ih]
      rfl
  | case4 l first r second horder ih =>
      have hless : back r l = .lt := by rw [← hback, horder]; rfl
      rw [align, hless, List.map_cons, ← ih]
      rfl
  | case5 l first r second horder ih =>
      have hequal : back r l = .eq := by rw [← hback, horder]; rfl
      rw [align, hequal, List.map_cons, ← ih]
      rfl

/-- A list is aligned with itself entry by entry, in any order in which each entry is equal
to itself. -/
theorem align_self {order : α → α → Ordering} (hrefl : ∀ entry, order entry entry = .eq)
    (entries : List α) :
    align order entries entries = entries.map fun entry => .both entry entry := by
  induction entries with
  | nil => simp [align]
  | cons entry rest ih =>
      rw [align, hrefl, List.map_cons, ← ih]

end ActivityCatalogue
