import ActivityCatalogue.File.Access
import ActivityCatalogue.File.Package
import ActivityCatalogue.File.Wildcard
import ActivityCatalogue.Log

/-!
# Expansion of paths

A path at which nothing exists is read as a pattern for the files of its
directory; only its last component is one.  A path that exists, and one that
matches nothing, is kept as it is, so that loading it tells what is wrong.
-/

namespace ActivityCatalogue

namespace FileTree

/-- The files of a directory whose names a pattern matches, in the order of their
paths in upper case. -/
def filesMatching (tree : FileTree) (directory : String) (pattern : List Wildcard.Part) :
    List String :=
  let place := if directory.isEmpty then "." else directory
  match tree.list place with
  | .error _ => []
  | .ok names =>
    let matching := names.filter fun name =>
      tree.isFile (Path.join place name) && Wildcard.accepts pattern name.toList
    (matching.map (Path.join directory)).mergeSort fun first second =>
      ordinal (Text.upper first) (Text.upper second) != .gt

/-- The files that a path matches; a path that exists matches none. -/
def expansion (tree : FileTree) (path : String) : Logged (List String) :=
  if tree.pathExists path then pure []
  else
    match Path.fileName? path with
    | none => pure []
    | some name =>
      match Wildcard.read name with
      | .ok pattern => pure (tree.filesMatching ((Path.parent? path).getD "") pattern)
      | .error violation =>
        ⟨[], [Log.noted .debug .expansion "path is not a valid pattern"
          [("path", .text path), ("error", .text violation.message)]]⟩

/-- All files that a path matches, or the path. -/
def expandAll (tree : FileTree) (path : String) : Logged (List String) := do
  match ← tree.expansion path with
  | [] => return [path]
  | files => return files

/-- The file that a path matches if there is exactly one, else the path. -/
def expandSingle (tree : FileTree) (path : String) : Logged String := do
  match ← tree.expansion path with
  | [] => return path
  | [file] => return file
  | files => do
    Logged.write [Log.noted .debug .expansion "ambiguous path pattern kept as given"
      [("path", .text path), ("matches", .count files.length)]]
    return path

end FileTree

end ActivityCatalogue
