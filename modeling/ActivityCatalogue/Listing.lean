import ActivityCatalogue.Catalogue.Resolution

/-!
# The listing of a catalogue

The packages in ordinal order, under each its accessible classes, and under
each class its properties with simplified types.  Activities that are hidden or
abstract are left out of the text, and the log tells of them.

```text
Acme.Activities.dll
    Acme.Activities.Click
        Target (String)
        Base::Timeout (Int32)
```
-/

namespace ActivityCatalogue

namespace Listing

def propertyLine (simplifier : Simplifier) (property : Property) : String :=
  s!"        {property.displayName} ({simplifier.simplify property.typeFullName})\n"

/-- The lines of one listed class. -/
def classBlock (catalogue : Catalogue) (simplifier : Simplifier) (entry : ClassEntry) : String :=
  s!"    {entry.simpleName}\n" ++
    String.join ((catalogue.properties entry).map (propertyLine simplifier))

/-- The activities of a package that are listed. -/
def listed (catalogue : Catalogue) (package : String) : List ClassEntry :=
  (catalogue.activitiesOf package).filter ClassEntry.isOpen

/-- The lines of one package. -/
def packageBlock (catalogue : Catalogue) (simplifier : Simplifier) (package : String) : String :=
  s!"{package}\n" ++
    String.join ((listed catalogue package).map (classBlock catalogue simplifier))

/-- What the log tells of one activity. -/
def activityLog (catalogue : Catalogue) (entry : ClassEntry) : List Log.Entry :=
  if entry.isOpen then
    (catalogue.properties entry).flatMap fun property => Simplifier.warnings property.typeFullName
  else
    [Log.noted .debug .listing "activity class not listed"
      [("class_name", .text entry.simpleName), ("full_name", .text entry.fullName),
        ("package_name", .text entry.package), ("is_public", .flag entry.isPublic),
        ("is_abstract", .flag entry.isAbstract), ("super_class", .text entry.superFullName)]]

end Listing

namespace Catalogue

/-- The listing as text. -/
def listing (catalogue : Catalogue) (simplifier : Simplifier) : String :=
  String.join (catalogue.packages.names.map (Listing.packageBlock catalogue simplifier))

/-- What the log tells while the listing is made. -/
def listingLog (catalogue : Catalogue) : List Log.Entry :=
  catalogue.packages.names.flatMap fun package =>
    (catalogue.activitiesOf package).flatMap (Listing.activityLog catalogue)

end Catalogue

end ActivityCatalogue
