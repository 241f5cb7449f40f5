import Mathlib
import ActivityCatalogue.File.Package
import ActivityCatalogue.Proofs.Alignment

/-!
# The order of package files

Two files belong to one package if their names agree up to the first version.  So
what counts of a name are its segments up to there and the fact that a version
follows, not which one (`identity`).  Versions are marked by `⊥`, which lies below all
words, and an identity that ends lies below its continuations.  With that the order
of files is the lexicographic order of their identities (`order_eq_lt_iff`), and
everything that a total preorder has to satisfy comes from there.

Sorting refines this order by the paths in upper case (`totalOrder_ne_gt_iff`), so
sorted files ascend by identity (`pairwise_identity_sort`).
-/

namespace ActivityCatalogue

/-- Lists are compared by their heads, then by their tails. -/
theorem compares_cons {α : Type} [LinearOrder α] {head tail : Ordering} {x y : α} {xs ys : List α}
    (hhead : head.Compares x y) (htail : tail.Compares xs ys) :
    (head.then tail).Compares (x :: xs) (y :: ys) := by
  cases head with
  | lt => exact List.cons_lt_cons_iff.mpr (Or.inl hhead)
  | gt => exact List.cons_lt_cons_iff.mpr (Or.inl hhead)
  | eq =>
      have heads : x = y := hhead
      subst heads
      cases tail with
      | lt => exact List.cons_lt_cons_iff.mpr (Or.inr ⟨rfl, htail⟩)
      | eq => exact congrArg (x :: ·) htail
      | gt => exact List.cons_lt_cons_iff.mpr (Or.inr ⟨rfl, htail⟩)

namespace PackageFile

/-! ## Identities -/

/-- What counts of the segments behind the first one: the words before a version,
and a mark for the version. -/
def identityBehind : List String → List (WithBot String)
  | [] => []
  | segment :: rest => if isVersion segment then [⊥] else ↑segment :: identityBehind rest

/-- What counts of all segments.  The first one is never a version. -/
def identityOf : List String → List (WithBot String)
  | [] => []
  | segment :: rest => ↑segment :: identityBehind rest

/-- The package to which a file belongs. -/
def identity (path : String) : List (WithBot String) := identityOf (segments path)

theorem nil_lt_identityBehind (segment : String) (rest : List String) :
    [] < identityBehind (segment :: rest) := by
  unfold identityBehind
  split
  · exact List.nil_lt_cons _ _
  · exact List.nil_lt_cons _ _

theorem ordinal_compares_coe (first second : String) :
    (ordinal first second).Compares (first : WithBot String) (second : WithBot String) := by
  cases hordinal : ordinal first second with
  | lt => exact WithBot.coe_lt_coe.mpr (ordinal_eq_lt_iff.mp hordinal)
  | eq => exact congrArg WithBot.some (ordinal_eq_eq_iff.mp hordinal)
  | gt => exact WithBot.coe_lt_coe.mpr (ordinal_eq_gt_iff.mp hordinal)

theorem compareFurther_compares (xs ys : List String) :
    (compareFurther xs ys).Compares (identityBehind xs) (identityBehind ys) := by
  induction xs generalizing ys with
  | nil =>
      cases ys with
      | nil => rfl
      | cons y ys => exact nil_lt_identityBehind y ys
  | cons x xs ih =>
      cases ys with
      | nil => exact nil_lt_identityBehind x xs
      | cons y ys =>
          -- behind a version nothing counts, and a version lies below any word
          cases hx : isVersion x with
          | true =>
              cases hy : isVersion y with
              | true => simp [compareFurther, identityBehind, hx, hy]
              | false =>
                  simp only [compareFurther, identityBehind, hx, hy]
                  exact List.cons_lt_cons_iff.mpr (Or.inl (WithBot.bot_lt_coe y))
          | false =>
              cases hy : isVersion y with
              | true =>
                  simp only [compareFurther, identityBehind, hx, hy]
                  exact List.cons_lt_cons_iff.mpr (Or.inl (WithBot.bot_lt_coe x))
              | false =>
                  simp only [compareFurther, identityBehind, hx, hy]
                  exact compares_cons (ordinal_compares_coe x y) (ih ys)

theorem compareSegments_compares (xs ys : List String) :
    (compareSegments xs ys).Compares (identityOf xs) (identityOf ys) := by
  cases xs with
  | nil =>
      cases ys with
      | nil => rfl
      | cons y ys => exact List.nil_lt_cons _ _
  | cons x xs =>
      cases ys with
      | nil => exact List.nil_lt_cons _ _
      | cons y ys =>
          exact compares_cons (ordinal_compares_coe x y) (compareFurther_compares xs ys)

/-! ## Files are compared by the identities of their packages -/

theorem compareSegments_eq_lt_iff {xs ys : List String} :
    compareSegments xs ys = .lt ↔ identityOf xs < identityOf ys :=
  (compareSegments_compares xs ys).eq_lt

theorem compareSegments_eq_eq_iff {xs ys : List String} :
    compareSegments xs ys = .eq ↔ identityOf xs = identityOf ys :=
  (compareSegments_compares xs ys).eq_eq

theorem compareSegments_eq_gt_iff {xs ys : List String} :
    compareSegments xs ys = .gt ↔ identityOf ys < identityOf xs :=
  (compareSegments_compares xs ys).eq_gt

theorem order_eq_lt_iff {first second : String} :
    order first second = .lt ↔ identity first < identity second :=
  compareSegments_eq_lt_iff

theorem order_eq_eq_iff {first second : String} :
    order first second = .eq ↔ identity first = identity second :=
  compareSegments_eq_eq_iff

theorem order_eq_gt_iff {first second : String} :
    order first second = .gt ↔ identity second < identity first :=
  compareSegments_eq_gt_iff

/-! ## Sorting -/

/-- Files of one package are told apart by their paths in upper case. -/
theorem totalOrder_ne_gt_iff {first second : String} :
    (totalOrder first second != .gt) = true ↔
      toLex (identity first, Text.upper first) ≤ toLex (identity second, Text.upper second) := by
  rw [Prod.Lex.toLex_le_toLex, bne_iff_ne]
  unfold totalOrder
  cases horder : order first second with
  | lt => simp [order_eq_lt_iff.mp horder]
  | eq =>
      have hsame : identity first = identity second := order_eq_eq_iff.mp horder
      have htie : ordinal (Text.upper first) (Text.upper second) ≠ .gt ↔
          Text.upper first ≤ Text.upper second := by
        rw [Ne, ordinal_eq_gt_iff, not_lt]
      simpa [hsame] using htie
  | gt =>
      have hgt := order_eq_gt_iff.mp horder
      simp [hgt.asymm, hgt.ne']

theorem totalOrder_trans (first second third : String) (hfirst : totalOrder first second != .gt)
    (hsecond : totalOrder second third != .gt) : totalOrder first third != .gt := by
  rw [totalOrder_ne_gt_iff] at hfirst hsecond ⊢
  exact hfirst.trans hsecond

theorem totalOrder_total (first second : String) :
    (totalOrder first second != .gt || totalOrder second first != .gt) = true := by
  rw [Bool.or_eq_true, totalOrder_ne_gt_iff, totalOrder_ne_gt_iff]
  exact le_total _ _

theorem pairwise_sort (files : List String) :
    (sort files).Pairwise fun earlier later =>
      toLex (identity earlier, Text.upper earlier) ≤ toLex (identity later, Text.upper later) := by
  have hsorted : (sort files).Pairwise fun earlier later => totalOrder earlier later != .gt :=
    List.pairwise_mergeSort totalOrder_trans totalOrder_total files
  exact hsorted.imp fun hle => totalOrder_ne_gt_iff.mp hle

/-- Sorted files ascend by their packages. -/
theorem pairwise_identity_sort (files : List String) :
    (sort files).Pairwise fun earlier later => identity earlier ≤ identity later := by
  refine (pairwise_sort files).imp fun hle => ?_
  rcases Prod.Lex.toLex_le_toLex.mp hle with hlt | ⟨heq, -⟩
  · exact hlt.le
  · exact heq.le

theorem sort_perm (files : List String) : (sort files).Perm files := List.mergeSort_perm files _

end PackageFile

end ActivityCatalogue
