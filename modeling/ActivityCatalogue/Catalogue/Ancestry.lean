import ActivityCatalogue.Catalogue.Basic

/-!
# Ancestors

A walk follows the simple names of base classes from class to class.  It stops
before an empty name, before a root and before a name that is not registered,
and it takes at most `maxHops` steps, so that it also ends in a cycle.
-/

namespace ActivityCatalogue

namespace Catalogue

/-- The greatest number of steps of an ancestor walk. -/
def maxHops : Nat := 30

/-- Whether a walk of at most `hops` steps from `name` meets a root. -/
def reachesRoot (catalogue : Catalogue) : (hops : Nat) → (name : String) → Bool
  | 0, _ => false
  | hops + 1, name =>
    if name.isEmpty then false
    else if catalogue.isRoot name then true
    else match catalogue.find? name with
      | none => false
      | some ancestor => reachesRoot catalogue hops ancestor.superSimpleName

/-- The classes that a walk of at most `hops` steps from `name` visits. -/
def ancestorsFrom (catalogue : Catalogue) : (hops : Nat) → (name : String) → List ClassEntry
  | 0, _ => []
  | hops + 1, name =>
    if name.isEmpty || catalogue.isRoot name then []
    else match catalogue.find? name with
      | none => []
      | some ancestor => ancestor :: ancestorsFrom catalogue hops ancestor.superSimpleName

/-- The ancestors of a class below the roots, nearest first. -/
def ancestors (catalogue : Catalogue) (entry : ClassEntry) : List ClassEntry :=
  catalogue.ancestorsFrom maxHops entry.superSimpleName

/-- A class whose chain of ancestors leads to a root. -/
def isActivity (catalogue : Catalogue) (entry : ClassEntry) : Bool :=
  catalogue.reachesRoot maxHops entry.superSimpleName

/-- The public, concrete activities: only they are compared and listed. -/
def isAccessible (catalogue : Catalogue) (entry : ClassEntry) : Bool :=
  entry.isOpen && catalogue.isActivity entry

/-- The accessible classes in ordinal order. -/
def accessible (catalogue : Catalogue) : List ClassEntry :=
  catalogue.entries.filter catalogue.isAccessible

/-- The activities of one package in ordinal order. -/
def activitiesOf (catalogue : Catalogue) (package : String) : List ClassEntry :=
  catalogue.entries.filter fun entry => entry.package == package && catalogue.isActivity entry

end Catalogue

end ActivityCatalogue
