import ActivityCatalogue.Fault
import ActivityCatalogue.Log

/-!
# Sessions

A command writes text, complains of faults and goes on, and logs.  A session is
the value of a command together with all that, in order.
-/

namespace ActivityCatalogue

namespace CommandLine

/-- What a command leaves behind. -/
structure Transcript where
  output : String := ""
  complaints : List Fault := []
  log : List Log.Entry := []
  deriving DecidableEq

namespace Transcript

def append (first second : Transcript) : Transcript where
  output := first.output ++ second.output
  complaints := first.complaints ++ second.complaints
  log := first.log ++ second.log

instance : Append Transcript := ⟨append⟩

@[simp] theorem output_append (first second : Transcript) :
    (first ++ second).output = first.output ++ second.output :=
  rfl

@[simp] theorem complaints_append (first second : Transcript) :
    (first ++ second).complaints = first.complaints ++ second.complaints :=
  rfl

@[simp] theorem log_append (first second : Transcript) :
    (first ++ second).log = first.log ++ second.log :=
  rfl

end Transcript

/-- A value with what was written on the way to it. -/
structure Session (α : Type) where
  value : α
  transcript : Transcript

namespace Session

instance : Monad Session where
  pure value := ⟨value, {}⟩
  bind first next :=
    ⟨(next first.value).value, first.transcript ++ (next first.value).transcript⟩

def say (text : String) : Session Unit := ⟨(), { output := text }⟩

def complain (fault : Fault) : Session Unit := ⟨(), { complaints := [fault] }⟩

def note (entries : List Log.Entry) : Session Unit := ⟨(), { log := entries }⟩

/-- A computation that only logs. -/
def ofLogged {α : Type} (logged : Logged α) : Session α := ⟨logged.value, { log := logged.log }⟩

/-! ## What sessions leave behind, one after the other -/

variable {α β : Type}

@[simp] theorem value_pure (value : α) : (pure value : Session α).value = value := rfl

@[simp] theorem transcript_pure (value : α) : (pure value : Session α).transcript = {} := rfl

@[simp] theorem value_bind (first : Session α) (next : α → Session β) :
    (first >>= next).value = (next first.value).value :=
  rfl

@[simp] theorem transcript_bind (first : Session α) (next : α → Session β) :
    (first >>= next).transcript = first.transcript ++ (next first.value).transcript :=
  rfl

@[simp] theorem transcript_say (text : String) : (say text).transcript = { output := text } := rfl

@[simp] theorem transcript_complain (fault : Fault) :
    (complain fault).transcript = { complaints := [fault] } :=
  rfl

@[simp] theorem transcript_note (entries : List Log.Entry) :
    (note entries).transcript = { log := entries } :=
  rfl

@[simp] theorem value_ofLogged (logged : Logged α) : (ofLogged logged).value = logged.value := rfl

@[simp] theorem transcript_ofLogged (logged : Logged α) :
    (ofLogged logged).transcript = { log := logged.log } :=
  rfl

end Session

/-- The lines in which a fault is complained of. -/
def complaint (fault : Fault) : String :=
  "ERROR: " ++ (if fault.message.isEmpty then fault.display else fault.message) ++ "\n" ++
    fault.path.elim "" fun path => "  " ++ path ++ "\n"

end CommandLine

end ActivityCatalogue
