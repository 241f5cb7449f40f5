import ActivityCatalogue.Alignment
import ActivityCatalogue.File.Path
import ActivityCatalogue.Text.UpperCase

/-!
# Snapshot files of packages

The name of a snapshot file is the name of its package and a version, as in
`Acme.Activities.1.2.0.json`.  Files of one package in two directories are
paired, whatever their versions.
-/

namespace ActivityCatalogue

namespace PackageFile

/-- Whether a path names a snapshot file; the extension may be in either case. -/
def isSnapshot (path : String) : Bool :=
  (Path.extension? path).any fun extension => extension.map Char.toLower == "json"

/-! ## The order of packages -/

/-- The segments of a file name in upper case. -/
def segments (path : String) : List String :=
  Text.pieces '.' (Text.upper ((Path.fileName? path).getD ""))

/-- A segment that starts a version. -/
def isVersion (segment : String) : Bool := segment.toList.head?.any Char.isDigit

/-- The order of the segments behind the first one.  Where both names reach a
version they denote the same package, and a version comes before a word. -/
def compareFurther : List String → List String → Ordering
  | [], [] => .eq
  | [], _ :: _ => .lt
  | _ :: _, [] => .gt
  | x :: xs, y :: ys =>
    match isVersion x, isVersion y with
    | true, true => .eq
    | true, false => .lt
    | false, true => .gt
    | false, false => (ordinal x y).then (compareFurther xs ys)

/-- The order of segment lists; the first segment is always a word. -/
def compareSegments : List String → List String → Ordering
  | x :: xs, y :: ys => (ordinal x y).then (compareFurther xs ys)
  | xs, ys => compareFurther xs ys

/-- The order of files by their packages; files of one package are equal. -/
def order (first second : String) : Ordering := compareSegments (segments first) (segments second)

/-- The order of files by their packages, and within a package by their paths in
upper case. -/
def totalOrder (first second : String) : Ordering :=
  (order first second).then (ordinal (Text.upper first) (Text.upper second))

/-- Files in the order in which they are paired. -/
def sort (files : List String) : List String :=
  files.mergeSort fun first second => totalOrder first second != .gt

/-! ## Pairing -/

/-- The files of two sorted lists, those of one package side by side. -/
def pair (old new : List String) : List (Aligned String String) := align order old new

end PackageFile

end ActivityCatalogue
