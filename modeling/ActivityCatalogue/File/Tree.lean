import ActivityCatalogue.File.Path

/-!
# File trees

A file tree says what is at each place: a directory, a file with its bytes, or
nothing.  A place is the list of names that lead to it from the root, which is
always a directory.  Relative paths start at the working directory.
-/

namespace ActivityCatalogue

/-- A name that a directory can give to what it holds. -/
structure FileName where
  text : String
  isName : Path.isName text = true
  deriving DecidableEq

/-- The names on the way from the root. -/
abbrev Place := List FileName

inductive FileNode where
  | directory
  | file (content : ByteArray)

instance : DecidableEq FileNode
  | .directory, .directory => .isTrue rfl
  | .directory, .file _ => .isFalse nofun
  | .file _, .directory => .isFalse nofun
  | .file content, .file other =>
    match ByteArray.instDecidableEq content other with
    | .isTrue heq => .isTrue (congrArg FileNode.file heq)
    | .isFalse hne => .isFalse fun heq => hne (FileNode.file.inj heq)

structure FileTree where
  workingDirectory : Place := []
  entries : List (Place × FileNode) := []

namespace FileTree

/-- What is at a place. -/
def at? (tree : FileTree) (place : Place) : Option FileNode :=
  match place with
  | [] => some .directory
  | _ :: _ => tree.entries.lookup place

/-- The tree with `node` at a place, whatever was there. -/
def put (tree : FileTree) (place : Place) (node : FileNode) : FileTree :=
  { tree with entries := (place, node) :: tree.entries.filter fun entry => entry.1 != place }

/-- The tree with nothing at a place. -/
def remove (tree : FileTree) (place : Place) : FileTree :=
  { tree with entries := tree.entries.filter fun entry => entry.1 != place }

/-- The name under which a directory holds a place. -/
def childName? (directory place : Place) : Option FileName :=
  match place.getLast? with
  | none => none
  | some name => if place.dropLast = directory then some name else none

/-- The names of what a directory holds, in ordinal order. -/
def namesIn (tree : FileTree) (directory : Place) : List FileName :=
  (tree.entries.filterMap fun entry => childName? directory entry.1).mergeSort
    fun first second => first.text ≤ second.text

/-! ## Putting and removing, place by place -/

theorem lookup_filter_ne {place other : Place} (entries : List (Place × FileNode))
    (hne : other ≠ place) :
    (entries.filter fun entry => entry.1 != place).lookup other = entries.lookup other := by
  induction entries with
  | nil => rfl
  | cons entry rest ih =>
    obtain ⟨head, node⟩ := entry
    by_cases hplace : head = place
    · have hother : (other == head) = false := by simpa [hplace] using hne
      simp [hplace, List.lookup_cons, ih, hplace ▸ hother]
    · simp [hplace, List.lookup_cons, ih]

theorem lookup_filter_self (place : Place) (entries : List (Place × FileNode)) :
    (entries.filter fun entry => entry.1 != place).lookup place = none := by
  rw [List.lookup_eq_none_iff]
  intro entry hentry
  have hne : entry.1 ≠ place := by simpa using (List.mem_filter.mp hentry).2
  simpa using Ne.symm hne

theorem at?_put_self (tree : FileTree) {place : Place} (node : FileNode) (hplace : place ≠ []) :
    (tree.put place node).at? place = some node := by
  cases place with
  | nil => exact absurd rfl hplace
  | cons name rest => simp [at?, put]

theorem at?_put_of_ne (tree : FileTree) {place other : Place} (node : FileNode)
    (hne : other ≠ place) : (tree.put place node).at? other = tree.at? other := by
  cases other with
  | nil => rfl
  | cons name rest =>
    have hhead : (name :: rest == place) = false := by simpa using hne
    simp only [at?, put, List.lookup_cons, hhead]
    exact lookup_filter_ne tree.entries hne

theorem at?_remove_self (tree : FileTree) {place : Place} (hplace : place ≠ []) :
    (tree.remove place).at? place = none := by
  cases place with
  | nil => exact absurd rfl hplace
  | cons name rest => exact lookup_filter_self _ _

theorem at?_remove_of_ne (tree : FileTree) {place other : Place} (hne : other ≠ place) :
    (tree.remove place).at? other = tree.at? other := by
  cases other with
  | nil => rfl
  | cons name rest => exact lookup_filter_ne tree.entries hne

end FileTree

end ActivityCatalogue
