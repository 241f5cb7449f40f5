import ActivityCatalogue.Comparison.Basic
import ActivityCatalogue.Text.Pieces

/-!
# Command lines

```text
diff OLD NEW [EXTRA] [--type none|simple|full] [--json]
print [PATH]…
```

Options may stand anywhere behind the command they belong to, at most once, and
take their value as the next argument or behind an equals sign.  `--config PATH`
and `--debug` belong to every command and may also stand before it.  Behind a
lone `--` all arguments are paths.
-/

namespace ActivityCatalogue

namespace CommandLine

/-! ## Single arguments -/

inductive Argument where
  /-- All that follows is plain. -/
  | divider
  | option (name : String) (value? : Option String)
  /-- Letters behind one dash; no command knows any. -/
  | letters
  | plain (text : String)
  deriving DecidableEq

/-- Cuts a text at its first equals sign, if it has one. -/
def cutAtEquals (text : String) : String × Option String :=
  match Text.pieces '=' text with
  | name :: part :: parts => (name, some (Text.join '=' (part :: parts)))
  | _ => (text, none)

def Argument.ofText (text : String) : Argument :=
  match text.toList with
  | ['-'] => .plain text
  | ['-', '-'] => .divider
  | '-' :: '-' :: rest =>
    let (name, value?) := cutAtEquals (String.ofList rest)
    .option name value?
  | '-' :: _ => .letters
  | _ => .plain text

/-- Whether an argument can be the value of the option before it. -/
def isValue (text : String) : Bool :=
  match Argument.ofText text with
  | .plain text => !text.isEmpty
  | .divider | .option .. | .letters => false

/-! ## The arguments of a level -/

/-- The options that are known before the command, or behind it. -/
structure Level where
  /-- The options with a value. -/
  valued : List String
  /-- The options without one. -/
  flags : List String
  /-- The first plain argument and all that follow belong to the next level. -/
  endsAtPlain : Bool

/-- The arguments of a level by kind. -/
structure Sorted where
  values : List (String × String) := []
  flags : List String := []
  plain : List String := []
  deriving DecidableEq

namespace Level

/-- Sorts arguments, unless one of them is not understood. -/
def sort? (level : Level) : List String → Option Sorted
  | [] => some {}
  | argument :: rest =>
    match Argument.ofText argument with
    | .letters => none
    | .divider => if level.endsAtPlain then none else some { plain := rest }
    | .plain text =>
      if level.endsAtPlain then some { plain := text :: rest }
      else (level.sort? rest).map fun sorted => { sorted with plain := text :: sorted.plain }
    | .option name (some value) =>
      if level.valued.contains name && !value.isEmpty then
        (level.sort? rest).map fun sorted =>
          { sorted with values := (name, value) :: sorted.values }
      else none
    | .option name none =>
      if level.flags.contains name then
        (level.sort? rest).map fun sorted => { sorted with flags := name :: sorted.flags }
      else
        match rest with
        | [] => none
        | value :: further =>
          if level.valued.contains name && isValue value then
            (level.sort? further).map fun sorted =>
              { sorted with values := (name, value) :: sorted.values }
          else none
termination_by arguments => arguments.length

/-- The sorted arguments, if all are understood and no option is repeated. -/
def read? (level : Level) (arguments : List String) : Option Sorted :=
  (level.sort? arguments).filter fun sorted =>
    (sorted.values.map Prod.fst).Nodup && sorted.flags.Nodup

end Level

def outerLevel : Level := ⟨["config"], ["debug"], true⟩

def diffLevel : Level := ⟨["config", "type"], ["debug", "json"], false⟩

def printLevel : Level := ⟨["config"], ["debug"], false⟩

/-! ## Commands -/

structure DiffRequest where
  old : String
  new : String
  extra : Option String := none
  sensitivity : Comparison.Sensitivity := default
  asJson : Bool := false
  deriving DecidableEq

inductive Command where
  | diff (request : DiffRequest)
  | print (paths : List String)
  deriving DecidableEq

structure Invocation where
  settingsPath : Option String
  debug : Bool
  command : Command
  deriving DecidableEq

/-- How types are compared, by the word for it. -/
def sensitivityOfWord? : String → Option Comparison.Sensitivity
  | "none" => some .untyped
  | "simple" => some .typedLoose
  | "full" => some .typedStrict
  | _ => none

/-- The request of a diff command. -/
def diffRequest? (sorted : Sorted) : Option DiffRequest := do
  let sensitivity ←
    match sorted.values.lookup "type" with
    | some word => sensitivityOfWord? word
    | none => some default
  let asJson := sorted.flags.contains "json"
  match sorted.plain with
  | [old, new] => some { old, new, sensitivity, asJson }
  | [old, new, extra] => some { old, new, extra := some extra, sensitivity, asJson }
  | _ => none

/-- What a command line asks for, if it is understood.  Of two settings paths the
one behind the command counts. -/
def Invocation.ofArguments? (arguments : List String) : Option Invocation := do
  let outer ← outerLevel.read? arguments
  let invocation (inner : Sorted) (command : Command) : Invocation :=
    { settingsPath := inner.values.lookup "config" <|> outer.values.lookup "config"
      debug := (outer.flags ++ inner.flags).contains "debug"
      command }
  match outer.plain with
  | "diff" :: arguments =>
    let inner ← diffLevel.read? arguments
    guard (inner.plain.all fun path => !path.isEmpty)
    return invocation inner (.diff (← diffRequest? inner))
  | "print" :: arguments =>
    let inner ← printLevel.read? arguments
    guard (inner.plain.all fun path => !path.isEmpty)
    return invocation inner (.print inner.plain)
  | _ => none

end CommandLine

end ActivityCatalogue
