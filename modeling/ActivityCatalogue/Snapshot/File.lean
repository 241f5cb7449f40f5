import ActivityCatalogue.Catalogue.Population
import ActivityCatalogue.File.Package
import ActivityCatalogue.File.Replacement
import ActivityCatalogue.Snapshot.Basic

/-!
# Snapshots in files

A snapshot file provides the modules of a catalogue.  The snapshot files of a
directory come in the order of their packages.
-/

namespace ActivityCatalogue

namespace Snapshot

def load (tree : FileTree) (path : String) : Except Fault Snapshot :=
  match tree.readText path with
  | .error failure => .error (.ofIo "load_snapshot" path failure.reason)
  | .ok text => Snapshot.parse path text

def save (tree : FileTree) (path : String) (snapshot : Snapshot) : FileTree × Option Fault :=
  tree.replace path snapshot.toText.toUTF8

/-- The provider of the modules in a snapshot file. -/
def provider (tree : FileTree) (path : String) : Catalogue.Provider where
  origin := path
  modules := (load tree path).map Snapshot.modules

end Snapshot

/-! ## Directories -/

namespace PackageFile

/-- The snapshot files that a directory holds, in the order of their packages. -/
def filesIn (tree : FileTree) (directory : String) : Except Fault (List String) :=
  match tree.list directory with
  | .error failure => .error (.ofIo "list_snapshots" directory failure.reason)
  | .ok names =>
    let paths := names.map (Path.join directory)
    .ok (sort (paths.filter fun path => tree.isFile path && isSnapshot path))

/-- The snapshot files of two directories, those of one package side by side. -/
def pairDirectories (tree : FileTree) (old new : String) :
    Except Fault (List (Aligned String String)) := do
  return pair (← filesIn tree old) (← filesIn tree new)

end PackageFile

end ActivityCatalogue
