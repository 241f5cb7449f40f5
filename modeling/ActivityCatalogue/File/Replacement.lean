import ActivityCatalogue.Fault
import ActivityCatalogue.File.Access

/-!
# Replacing a file as a whole

The new content is first written to a file beside the target, whose extension
is `tmp`, and that file is then moved to the target.  So the target holds its
old content until it holds the new one.  Missing directories on the way to the
target are made first.
-/

namespace ActivityCatalogue

namespace FileTree

/-- The path under which new content waits. -/
def draftPath (path : String) : String := Path.withExtension path "tmp"

/-- Puts content at the end of a path.  Also tells the fault of the step that
fails, if one does; what was done before remains. -/
def replace (tree : FileTree) (path : String) (content : ByteArray) : FileTree × Option Fault :=
  let parent := (Path.parent? path).getD ""
  match tree.createDirectories parent with
  | (made, some failure) => (made, some (.ofIo "create_dir" parent failure.reason))
  | (made, none) =>
    match made.write (draftPath path) content with
    | .error failure => (made, some (.ofIo "write_temp" (draftPath path) failure.reason))
    | .ok drafted =>
      match drafted.move (draftPath path) path with
      | .error failure => (drafted, some (.ofIo "rename_temp" path failure.reason))
      | .ok replaced => (replaced, none)

end FileTree

end ActivityCatalogue
