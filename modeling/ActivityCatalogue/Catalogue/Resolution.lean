import ActivityCatalogue.Catalogue.Ancestry

/-!
# Resolution

The resolved properties of a class are its own and those of its ancestors,
under names that tell the ancestor.  Candidates are met in order, the class
itself first, then its ancestors from the nearest on; the first candidate of a
name stays.  A virtual getter whose plain name is already present is overridden
and drops out.

A catalogue settles the properties of a class when they are first asked for:
from then on the class keeps them, whatever is registered later.
-/

namespace ActivityCatalogue

/-- The name under which `entry` shows a property that `ancestor` declares; the
namespace of the class is left out. -/
def decorate (entry ancestor : ClassEntry) (propertyName : String) : String :=
  let prefixed := entry.namespaceName.toList
  let relative :=
    if prefixed.isPrefixOf ancestor.simpleName.toList then
      String.ofList (ancestor.simpleName.toList.drop prefixed.length)
    else ancestor.simpleName
  relative ++ "::" ++ propertyName

namespace Catalogue

/-! ## Meeting candidates -/

/-- Own properties come under their own names. -/
def withOwn (entry : ClassEntry) (properties : NameMap Property) (declared : DeclaredProperty) :
    NameMap Property :=
  properties.insertNew declared.name
    { displayName := declared.name, typeFullName := declared.typeFullName,
      owningClass := entry.simpleName, resolvedFor := entry.simpleName }

/-- An inherited property comes under its decorated name, unless it is overridden. -/
def withInherited (entry ancestor : ClassEntry) (properties : NameMap Property)
    (declared : DeclaredProperty) : NameMap Property :=
  if declared.getterIsVirtual && properties.contains declared.name then properties
  else
    properties.insertNew (decorate entry ancestor declared.name)
      { displayName := decorate entry ancestor declared.name,
        typeFullName := declared.typeFullName,
        owningClass := ancestor.simpleName, resolvedFor := entry.simpleName }

/-- All properties of a class with the given ancestors. -/
def propertyMap (entry : ClassEntry) (ancestors : List ClassEntry) : NameMap Property :=
  ancestors.foldl
    (fun properties ancestor => ancestor.declared.foldl (withInherited entry ancestor) properties)
    (entry.declared.foldl (withOwn entry) .empty)

/-- The properties of a class, resolved afresh, in ordinal order of their names. -/
def resolve (catalogue : Catalogue) (entry : ClassEntry) : List Property :=
  (propertyMap entry (catalogue.ancestors entry)).values

/-! ## Settled properties -/

/-- The properties of a class: those it has settled on, else resolved afresh. -/
def properties (catalogue : Catalogue) (entry : ClassEntry) : List Property :=
  entry.settled.getD (catalogue.resolve entry)

/-- The class with its properties settled. -/
def settleEntry (catalogue : Catalogue) (entry : ClassEntry) : ClassEntry :=
  { entry with settled := some (catalogue.properties entry) }

/-- The catalogue after the properties of the classes that satisfy `asked` were
asked for. -/
def settle (catalogue : Catalogue) (asked : ClassEntry → Bool) : Catalogue :=
  { catalogue with
    classes := catalogue.classes.mapValues fun _ entry =>
      if asked entry then catalogue.settleEntry entry else entry
    named := by
      intro registered hregistered
      obtain ⟨old, hold, rfl⟩ := List.mem_map.mp hregistered
      have hname : old.2.simpleName = old.1 := catalogue.named old hold
      dsimp only
      split
      · exact hname
      · exact hname }

end Catalogue

end ActivityCatalogue
