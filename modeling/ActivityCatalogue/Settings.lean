import ActivityCatalogue.NameMap
import ActivityCatalogue.Text.Blank
import ActivityCatalogue.TypeName.Simplifier

/-!
# Settings

The two lists that a run depends on: the classes at which ancestor walks stop,
and the namespaces that simplified type names drop.
-/

namespace ActivityCatalogue

/-- The activity base classes that are known without settings. -/
def builtinActivityClasses : List String :=
  ["System.Activities.Activity", "System.Activities.CodeActivity",
    "System.Activities.AsyncCodeActivity", "System.Activities.NativeActivity"]

/-- The namespaces that are well known without settings. -/
def builtinNamespaces : List String :=
  ["System", "System.Activities", "System.Collections.Generic", "System.Data"]

structure Settings where
  activityClasses : List String := builtinActivityClasses
  namespaces : List String := builtinNamespaces
  deriving DecidableEq

/-- The trimmed names of a list, without those that trimming leaves empty. -/
def trimmedNames (names : List String) : NameSet :=
  NameSet.ofList ((names.map Text.trim).filter fun name => !name.isEmpty)

namespace Settings

/-- The classes at which ancestor walks stop. -/
def roots (settings : Settings) : NameSet := trimmedNames settings.activityClasses

def namespaceSet (settings : Settings) : NameSet := trimmedNames settings.namespaces

def simplifier (settings : Settings) : Simplifier := ⟨settings.namespaceSet⟩

end Settings

end ActivityCatalogue
