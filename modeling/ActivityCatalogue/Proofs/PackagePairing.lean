import ActivityCatalogue.Proofs.PackageOrder

/-!
# Pairing package files

Two directories may hold several files of one package, so the lists that are paired
ascend, but not strictly: each package is a run of equal files in either list.  An
alignment of two ascending lists goes through both runs of a package side by side
until one of them ends (`filter_couples_align`), so the files of a package are paired
from the first ones on, and only one list can have some left over
(`key_ne_of_mem_align`).

Nothing of that needs more than the keys of the files.  For lists in any order, it is
still true that no file is lost and that paired files belong to one package.
-/

namespace ActivityCatalogue

section Keys

variable {α κ : Type} [LinearOrder κ]

/-- The entries at a place where both lists have one. -/
def Aligned.couple? : Aligned α α → Option (α × α)
  | first _ => none
  | second _ => none
  | both l r => some (l, r)

/-- The order tells which of two entries has the lesser key. -/
structure ComparesBy (key : α → κ) (order : α → α → Ordering) : Prop where
  lt : ∀ {l r}, order l r = .lt → key l < key r
  eq : ∀ {l r}, order l r = .eq → key l = key r
  gt : ∀ {l r}, order l r = .gt → key r < key l

/-- The keys of the entries ascend; neighbours may have one key. -/
def AscendingIn (key : α → κ) (entries : List α) : Prop :=
  entries.Pairwise fun earlier later => key earlier ≤ key later

variable {key : α → κ} {order : α → α → Ordering} {first second : List α} {l r : α}

theorem AscendingIn.tail {entry : α} {rest : List α}
    (hascending : AscendingIn key (entry :: rest)) : AscendingIn key rest :=
  (List.pairwise_cons.mp hascending).2

theorem AscendingIn.le_of_mem {entry other : α} {rest : List α}
    (hascending : AscendingIn key (entry :: rest)) (hother : other ∈ entry :: rest) :
    key entry ≤ key other := by
  rcases List.mem_cons.mp hother with rfl | hrest
  · exact le_rfl
  · exact (List.pairwise_cons.mp hascending).1 other hrest

theorem AscendingIn.filter_eq_nil {k : κ} {entry : α} {rest : List α}
    (hascending : AscendingIn key (entry :: rest)) (hlt : k < key entry) :
    (entry :: rest).filter (fun other => key other = k) = [] := by
  rw [List.filter_eq_nil_iff]
  intro other hother
  have hle : key entry ≤ key other := hascending.le_of_mem hother
  simpa using (hlt.trans_le hle).ne'

/-- **Runs of one key are paired from their beginnings on**, as far as the shorter
one reaches. -/
theorem filter_couples_align (hcompares : ComparesBy key order) (hfirst : AscendingIn key first)
    (hsecond : AscendingIn key second) (k : κ) :
    ((align order first second).filterMap Aligned.couple?).filter (fun couple => key couple.1 = k) =
      (first.filter fun entry => key entry = k).zip (second.filter fun entry => key entry = k) := by
  fun_induction align order first second with
  | case1 second => simp [List.filterMap_map, Function.comp_def, Aligned.couple?]
  | case2 first _ => simp [List.filterMap_map, Function.comp_def, Aligned.couple?]
  | case3 l first r second horder ih =>
      have hrest := ih hfirst.tail hsecond
      rw [List.filterMap_cons_none rfl, hrest]
      by_cases hkey : key l = k
      · -- the other list has nothing of this key, so both sides are empty
        have hnone : (r :: second).filter (fun entry => key entry = k) = [] :=
          hsecond.filter_eq_nil (hkey ▸ hcompares.lt horder)
        rw [hnone, List.zip_nil_right, List.zip_nil_right]
      · simp [List.filter_cons (x := l), hkey]
  | case4 l first r second horder ih =>
      have hrest := ih hfirst hsecond.tail
      rw [List.filterMap_cons_none rfl, hrest]
      by_cases hkey : key r = k
      · have hnone : (l :: first).filter (fun entry => key entry = k) = [] :=
          hfirst.filter_eq_nil (hkey ▸ hcompares.gt horder)
        rw [hnone, List.zip_nil_left, List.zip_nil_left]
      · simp [List.filter_cons (x := r), hkey]
  | case5 l first r second horder ih =>
      have hrest := ih hfirst.tail hsecond.tail
      have hsame : key l = key r := hcompares.eq horder
      by_cases hkey : key l = k
      · have hother : key r = k := hsame ▸ hkey
        simp [Aligned.couple?, hkey, hother, hrest]
      · have hother : key r ≠ k := hsame ▸ hkey
        simp [Aligned.couple?, hkey, hother, hrest]

/-- Entries that stand alone on either side have different keys. -/
theorem key_ne_of_mem_align (hcompares : ComparesBy key order) (hfirst : AscendingIn key first)
    (hsecond : AscendingIn key second) (hl : .first l ∈ align order first second)
    (hr : .second r ∈ align order first second) : key l ≠ key r := by
  fun_induction align order first second with
  | case1 second => simp at hl
  | case2 first _ => simp at hr
  | case3 head first other second horder ih =>
      have hrest : .second r ∈ align order first (other :: second) := by simpa using hr
      rcases List.mem_cons.mp hl with heq | hlater
      · -- the head is below all of the other list
        obtain rfl := Aligned.first.inj heq
        have hmem : r ∈ other :: second := mem_of_second?_align hrest rfl
        exact ((hcompares.lt horder).trans_le (hsecond.le_of_mem hmem)).ne
      · exact ih hfirst.tail hsecond hlater hrest
  | case4 head first other second horder ih =>
      have hrest : .first l ∈ align order (head :: first) second := by simpa using hl
      rcases List.mem_cons.mp hr with heq | hlater
      · obtain rfl := Aligned.second.inj heq
        have hmem : l ∈ head :: first := mem_of_first?_align hrest rfl
        exact ((hcompares.gt horder).trans_le (hfirst.le_of_mem hmem)).ne'
      · exact ih hfirst hsecond.tail hrest hlater
  | case5 head first other second horder ih =>
      exact ih hfirst.tail hsecond.tail (by simpa using hl) (by simpa using hr)

end Keys

namespace PackageFile

theorem comparesBy_identity : ComparesBy identity order where
  lt := order_eq_lt_iff.mp
  eq := order_eq_eq_iff.mp
  gt := order_eq_gt_iff.mp

/-- The pairs of files of one package, in the order in which they are met. -/
def pairsOf (package : List (WithBot String)) (places : List (Aligned String String)) :
    List (String × String) :=
  (places.filterMap Aligned.couple?).filter fun files => identity files.1 = package

/-- The files of one package, in order. -/
def filesOf (package : List (WithBot String)) (files : List String) : List String :=
  files.filter fun file => identity file = package

/-- **Main statement.**  Files compare equal exactly if they belong to one package.
Pairing two lists in any order loses and repeats nothing, and what it pairs belongs to
one package.  In two sorted lists, it pairs the files of each package in turn, the
first with the first and so on, as many as the shorter run has; so no package has
files left over on both sides. -/
theorem pair_by_package (old new : List String) :
    (∀ first second, order first second = .eq ↔ identity first = identity second) ∧
    ((pair old new).filterMap Aligned.first? = old ∧
      (pair old new).filterMap Aligned.second? = new ∧
      ∀ l r, .both l r ∈ pair old new → order l r = .eq) ∧
    (sort old).Perm old ∧ (sort new).Perm new ∧
    ((pair (sort old) (sort new)).filterMap Aligned.first? = sort old ∧
      (pair (sort old) (sort new)).filterMap Aligned.second? = sort new ∧
      (∀ l r, .both l r ∈ pair (sort old) (sort new) → order l r = .eq) ∧
      (∀ package, pairsOf package (pair (sort old) (sort new)) =
        (filesOf package (sort old)).zip (filesOf package (sort new))) ∧
      (∀ package, (pairsOf package (pair (sort old) (sort new))).length =
        min (filesOf package old).length (filesOf package new).length) ∧
      ∀ l r, .first l ∈ pair (sort old) (sort new) → .second r ∈ pair (sort old) (sort new) →
        order l r ≠ .eq) := by
  have hruns : ∀ package, pairsOf package (pair (sort old) (sort new)) =
      (filesOf package (sort old)).zip (filesOf package (sort new)) := by
    intro package
    unfold pairsOf filesOf pair
    convert filter_couples_align comparesBy_identity (pairwise_identity_sort old)
      (pairwise_identity_sort new) package
  refine ⟨fun _ _ => order_eq_eq_iff, ⟨filterMap_first?_align order old new,
    filterMap_second?_align order old new, fun _ _ => eq_of_both_mem_align⟩, sort_perm old,
    sort_perm new, filterMap_first?_align order _ _, filterMap_second?_align order _ _,
    fun _ _ => eq_of_both_mem_align, hruns, fun package => ?_, fun l r hl hr heq => ?_⟩
  · have hold : (filesOf package (sort old)).length = (filesOf package old).length :=
      ((sort_perm old).filter _).length_eq
    have hnew : (filesOf package (sort new)).length = (filesOf package new).length :=
      ((sort_perm new).filter _).length_eq
    rw [hruns, List.length_zip, hold, hnew]
  · exact key_ne_of_mem_align comparesBy_identity (pairwise_identity_sort old)
      (pairwise_identity_sort new) hl hr (order_eq_eq_iff.mp heq)

end PackageFile

end ActivityCatalogue
