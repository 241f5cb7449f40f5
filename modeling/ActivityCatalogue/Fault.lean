/-!
# Faults

What the program reports when an operation fails: a kind with a stable code,
the operation, the class or file concerned and a message, followed by the
faults that caused it, nearest first.
-/

namespace ActivityCatalogue

namespace Fault

/-- The kinds of fault. -/
inductive Kind where
  | invalidInput
  | notFound
  | invalidConfig
  | invalidSnapshot
  | unsupportedInput
  | io
  | serialization
  deriving DecidableEq

/-- The code under which scripts know the kind. -/
def Kind.code : Kind → String
  | invalidInput => "ERR_INVALID_INPUT"
  | notFound => "ERR_NOT_FOUND"
  | invalidConfig => "ERR_INVALID_CONFIG"
  | invalidSnapshot => "ERR_INVALID_SNAPSHOT"
  | unsupportedInput => "ERR_UNSUPPORTED_INPUT"
  | io => "ERR_IO"
  | serialization => "ERR_SERIALIZATION"

/-- The name under which log entries show the kind. -/
def Kind.label : Kind → String
  | invalidInput => "InvalidInput"
  | notFound => "NotFound"
  | invalidConfig => "InvalidConfig"
  | invalidSnapshot => "InvalidSnapshot"
  | unsupportedInput => "UnsupportedInput"
  | io => "Io"
  | serialization => "Serialization"

/-- One fault, apart from its causes. -/
structure Account where
  kind : Kind
  operation : Option String := none
  entity : Option String := none
  path : Option String := none
  message : String := ""
  deriving DecidableEq

/-- The parts that are present, in a fixed order behind the code. -/
def Account.display (account : Account) : String :=
  s!"[{account.kind.code}]" ++
    (account.operation.elim "" fun operation => s!" in operation '{operation}'") ++
    (if account.message.isEmpty then "" else s!": {account.message}") ++
    (account.entity.elim "" fun entity => s!" (entity: {entity})") ++
    (account.path.elim "" fun path => s!" (path: {path})")

end Fault

/-- A fault with its causes, nearest first. -/
structure Fault extends Fault.Account where
  causes : List Fault.Account := []
  deriving DecidableEq

namespace Fault

def ofKind (kind : Kind) : Fault := { kind }

def code (fault : Fault) : String := fault.kind.code

def duringOperation (fault : Fault) (operation : String) : Fault :=
  { fault with operation := some operation }

def aboutEntity (fault : Fault) (entity : String) : Fault := { fault with entity := some entity }

def atPath (fault : Fault) (path : String) : Fault := { fault with path := some path }

def saying (fault : Fault) (message : String) : Fault := { fault with message }

/-- Replaces the causes by `cause` and the causes of that. -/
def causedBy (fault : Fault) (cause : Fault) : Fault :=
  { fault with causes := cause.toAccount :: cause.causes }

/-- The whole chain on one line. -/
def display (fault : Fault) : String :=
  fault.toAccount.display ++ String.join (fault.causes.map fun cause => " <- " ++ cause.display)

/-! ## The faults of the store -/

def ofIo (operation path reason : String) : Fault :=
  { kind := .io, operation := some operation, path := some path, message := reason }

def ofSettingsText (path reason : String) : Fault :=
  { kind := .invalidConfig, operation := some "load_settings", path := some path,
    message := "Settings parse error: " ++ reason }

def ofSnapshotText (path reason : String) : Fault :=
  { kind := .invalidSnapshot, operation := some "load_snapshot", path := some path,
    message := "Snapshot parse error: " ++ reason }

def unsupportedFile (path : String) : Fault :=
  { kind := .unsupportedInput, path := some path, message := "Unsupported file type." }

def ofSerialization (operation reason : String) : Fault :=
  { kind := .serialization, operation := some operation, message := reason }

end Fault

end ActivityCatalogue
