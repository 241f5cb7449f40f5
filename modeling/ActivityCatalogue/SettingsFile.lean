import ActivityCatalogue.Codec.SettingsDocument
import ActivityCatalogue.File.Replacement
import ActivityCatalogue.Log

/-!
# The settings file

The settings lie in a file of the user's data directory.  The file is created
with the built-in settings when it is missing, and never changed otherwise.  A
run goes on with the built-in settings if the file cannot be used.
-/

namespace ActivityCatalogue

namespace Settings

/-! ## Where the file lies -/

/-- Where a user's files lie, as far as it is known. -/
structure UserPlaces where
  /-- The home directory that the environment names. -/
  home? : Option String := none
  /-- The home directory of the user's account. -/
  accountHome? : Option String := none
  /-- The data directory that the environment names. -/
  data? : Option String := none

namespace UserPlaces

/-- The home directory of the environment, unless it is empty, else the account's. -/
def homeDirectory? (places : UserPlaces) : Option String :=
  (places.home?.filter fun home => !home.isEmpty).or places.accountHome?

/-- The directory for the data of a user: the one of the environment if it is an
absolute path, else the usual one in the home directory. -/
def dataDirectory (places : UserPlaces) : String :=
  match places.data?.filter Path.isAbsolute with
  | some data => data
  | none =>
    match places.homeDirectory? with
    | some home => Path.join home ".local/share"
    | none => "."

end UserPlaces

/-- The path of the settings file, unless a run names another one. -/
def defaultPath (places : UserPlaces) : String :=
  ["UiPathTeam", "ActivityReader", "configuration.yml"].foldl Path.join places.dataDirectory

/-! ## Loading and saving -/

def load (tree : FileTree) (path : String) : Except Fault Settings :=
  match tree.readText path with
  | .error failure => .error (.ofIo "load_settings" path failure.reason)
  | .ok text => Settings.parse path text

def save (tree : FileTree) (path : String) (settings : Settings) : FileTree × Option Fault :=
  tree.replace path settings.toDocument.toUTF8

/-- What the log tells of a settings file that cannot be used or created. -/
def trouble (message path : String) (fault : Fault) : Log.Entry :=
  Log.noted .error .settingsFile message
    [("path", .text path), ("err_code", .text fault.code), ("error", .text fault.display)]

/-- The settings of a file, which is created if it is missing, and the tree
after that. -/
def loadOrCreate (tree : FileTree) (path : String) : Logged (Settings × FileTree) :=
  if tree.pathExists path then
    match load tree path with
    | .ok settings =>
      ⟨(settings, tree),
        [Log.noted .debug .settingsFile "settings loaded" [("path", .text path)]]⟩
    | .error fault =>
      ⟨({}, tree), [trouble "failed to load settings, using defaults" path fault]⟩
  else
    let (changed, fault?) := save tree path {}
    ⟨({}, changed), fault?.toList.map (trouble "failed to create settings file" path)⟩

end Settings

end ActivityCatalogue
