import ActivityCatalogue.Fault

/-!
# The log

Every operation that a log shows has a start and one end, and both name the
operation.  Other entries carry a message.  A computation that logs is a value
together with its entries, in order.
-/

namespace ActivityCatalogue

namespace Log

inductive Level where
  | trace
  | debug
  | info
  | warn
  | error
  deriving DecidableEq

def Level.label : Level → String
  | trace => "TRACE"
  | debug => "DEBUG"
  | info => "INFO"
  | warn => "WARN"
  | error => "ERROR"

/-- Whether entries of a level are shown; debugging shows one level more. -/
def Level.isShown (debugging : Bool) : Level → Bool
  | trace => false
  | debug => debugging
  | info | warn | error => true

/-- The part of the program that writes an entry. -/
inductive Source where
  | typeNames
  | catalogue
  | comparison
  | listing
  | settingsFile
  | expansion
  | diffCommand
  deriving DecidableEq

/-- Where in an operation an entry stands. -/
inductive Phase where
  | start
  | finish
  | failure
  deriving DecidableEq

def Phase.label : Phase → String
  | start => "start"
  | finish => "end"
  | failure => "end_error"

inductive Value where
  | text (text : String)
  | count (count : Nat)
  | flag (flag : Bool)
  deriving DecidableEq

/-- A value as it is shown among others. -/
def Value.shown : Value → String
  | .text content => content
  | .count number => toString number
  | flag true => "true"
  | flag false => "false"

/-- An entry.  `signed` says whether the source is also one of its fields. -/
structure Entry where
  level : Level
  source : Source
  signed : Bool := false
  boundary : Option (String × Phase) := none
  message : Option String := none
  details : List (String × Value) := []
  deriving DecidableEq

namespace Entry

def operation (entry : Entry) : Option String := entry.boundary.map Prod.fst

def phase (entry : Entry) : Option Phase := entry.boundary.map Prod.snd

/-- The end of an operation, well or badly, tells how long it took. -/
def isTimed (entry : Entry) : Bool :=
  match entry.phase with
  | some .finish | some .failure => true
  | some .start | none => false

/-- Everything that an entry tells, by name. -/
def fields (entry : Entry) : List (String × Value) :=
  (entry.boundary.elim [] fun (operation, phase) =>
    [("op", .text operation), ("event", .text phase.label)]) ++
    (entry.message.elim [] fun message => [("message", .text message)]) ++ entry.details

/-- An entry on one line. -/
def line (entry : Entry) : String :=
  entry.level.label ++
    String.join (entry.fields.map fun field => s!" {field.1}={field.2.shown}")

end Entry

def started (source : Source) (operation : String) (details : List (String × Value)) : Entry :=
  { level := .info, source, signed := true, boundary := some (operation, .start), details }

def finished (source : Source) (operation : String) (details : List (String × Value)) : Entry :=
  { level := .info, source, signed := true, boundary := some (operation, .finish), details }

def failed (source : Source) (operation : String) (fault : Fault)
    (details : List (String × Value)) : Entry :=
  { level := .error, source, signed := true, boundary := some (operation, .failure),
    details := [("err_kind", .text fault.kind.label), ("err_code", .text fault.code),
      ("err_message", .text fault.message)] ++ details }

def noted (level : Level) (source : Source) (message : String)
    (details : List (String × Value)) : Entry :=
  { level, source, message := some message, details }

/-! ## The vocabulary -/

/-- The keys of all fields with a fixed meaning, and the names of the phases. -/
def vocabulary : List String :=
  ["component", "op", "event", "duration_ms", "class_name", "package_name", "property_name",
    "type_name", "path", "class_count", "differences", "err_kind", "err_code", "err_message"] ++
    [Phase.start, .finish, .failure].map Phase.label

end Log

/-! ## Computations that log -/

/-- A value with the entries written on the way to it. -/
structure Logged (α : Type) where
  value : α
  log : List Log.Entry

namespace Logged

instance : Monad Logged where
  pure value := ⟨value, []⟩
  bind first next := ⟨(next first.value).value, first.log ++ (next first.value).log⟩

def write (entries : List Log.Entry) : Logged Unit := ⟨(), entries⟩

variable {α β : Type}

@[simp] theorem value_pure (value : α) : (pure value : Logged α).value = value := rfl

@[simp] theorem log_pure (value : α) : (pure value : Logged α).log = [] := rfl

@[simp] theorem value_bind (first : Logged α) (next : α → Logged β) :
    (first >>= next).value = (next first.value).value :=
  rfl

@[simp] theorem log_bind (first : Logged α) (next : α → Logged β) :
    (first >>= next).log = first.log ++ (next first.value).log :=
  rfl

@[simp] theorem log_write (entries : List Log.Entry) : (write entries).log = entries := rfl

end Logged

end ActivityCatalogue
