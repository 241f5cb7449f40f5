import ActivityCatalogue.Yaml.Token

/-!
# YAML documents

A document is a node: a scalar, a sequence, a mapping, or an alias for an
anchored node.  Anchors are numbered by the count of distinct names before them,
so a name that is given anew shares its number with the next new name, and the
later of the two nodes is the one that the number denotes.
-/

namespace ActivityCatalogue

namespace Yaml

inductive Node where
  | scalar (isPlain : Bool) (text : List Char)
  | sequence (items : List Node)
  | mapping (entries : List (Node × Node))
  | alias (number : Nat)

namespace Node

/-- A missing node reads as an empty plain text. -/
def missing : Node := .scalar true []

end Node

/-- A document being read. -/
structure Reading where
  tokens : List Token
  /-- The handles of the directives. -/
  handles : List (List Char)
  /-- The anchors with their numbers, the latest first. -/
  names : List (List Char × Nat) := []
  /-- The number of distinct names among the anchors. -/
  nameCount : Nat := 0
  /-- The anchored nodes with their numbers, in the order of their starts. -/
  anchored : List (Nat × Node) := []

/-- The handles that are known without a directive. -/
def builtinHandles : List (List Char) := [['!'], ['!', '!']]

/-- A reader of part of a document. -/
abbrev Reader (α : Type) := StateT Reading Option α

namespace Reader

def peek : Reader (Option Token) := do return (← get).tokens.head?

def skip : Reader Unit := modify fun reading => { reading with tokens := reading.tokens.tail }

/-- Whether one of these tokens comes next. -/
def isNext (tokens : List Token) : Reader Bool := do
  return (← peek).any tokens.contains

/-- Goes past a token that has to come next. -/
def expect (token : Token) : Reader Unit := do
  if (← peek) == some token then skip else failure

/-- The number that an anchor gets. -/
def giveName (name : List Char) : Reader Nat := do
  let reading ← get
  let number := reading.nameCount
  let isNew := (reading.names.lookup name).isNone
  set { reading with
    names := (name, number) :: reading.names
    nameCount := if isNew then number + 1 else number }
  return number

/-- An anchor, if one comes next. -/
def anchor? : Reader (Option (List Char)) := do
  match ← peek with
  | some (.anchor name) => skip; return some name
  | _ => return none

/-- A tag, if one comes next.  The handle that it names has to be known. -/
def tag? : Reader Bool := do
  match ← peek with
  | some (.tag handle) =>
    skip
    if handle.all (builtinHandles ++ (← get).handles).contains then return true else failure
  | _ => return false

/-- The anchor and the tag before a node, in either order, and whether there is
one of them. -/
def properties : Reader (Option (List Char) × Bool) := do
  match ← anchor? with
  | some name => let _ ← tag?; return (some name, true)
  | none =>
    if ← tag? then return (← anchor?, true) else return (none, false)

/-- Reads a node and files it under the number of its anchor. -/
def anchoring (anchor : Option (List Char)) (read : Reader Node) : Reader Node := do
  match anchor with
  | none => read
  | some name =>
    let number ← giveName name
    let before := (← get).anchored
    modify fun reading => { reading with anchored := [] }
    let node ← read
    modify fun reading => { reading with anchored := before ++ (number, node) :: reading.anchored }
    return node

/-! ## Nodes

Few calls lie between one token taken and the next, so a multiple of the number of
tokens bounds how deep the readers call each other. -/

mutual

/-- A node.  Block collections start only where `inBlock` says so, and a sequence
without indentation only as the key or value of a block mapping. -/
def node (inBlock isUnindented : Bool) : (bound : Nat) → Reader Node
  | 0 => failure
  | bound + 1 => do
    if let some (.alias name) ← peek then
      skip
      match (← get).names.lookup name with
      | some number => return .alias number
      | none => failure
    let (anchor, isMarked) ← properties
    anchoring anchor do
      match ← peek with
      | some (.scalar isPlain text) => skip; return .scalar isPlain text
      | some .openFlowSequence => skip; return .sequence (← flowItems true bound)
      | some .openFlowMapping => skip; return .mapping (← flowEntries true bound)
      | some .blockEntry =>
        if isUnindented then return .sequence (← unindentedItems bound)
        else if isMarked then return .missing
        else failure
      | some .openBlockSequence =>
        if inBlock then do skip; return .sequence (← blockItems bound)
        else if isMarked then return .missing
        else failure
      | some .openBlockMapping =>
        if inBlock then do skip; return .mapping (← blockEntries bound)
        else if isMarked then return .missing
        else failure
      | _ => if isMarked then return .missing else failure

/-- A node, or a missing one if a token comes next that ends its place. -/
def nodeUnless (ends : List Token) (inBlock isUnindented : Bool) : (bound : Nat) → Reader Node
  | 0 => failure
  | bound + 1 => do
    if ← isNext ends then return .missing else node inBlock isUnindented bound

/-- The items up to the close of a block sequence. -/
def blockItems : (bound : Nat) → Reader (List Node)
  | 0 => failure
  | bound + 1 => do
    match ← peek with
    | some .blockEntry =>
      skip
      let item ← nodeUnless [.blockEntry, .closeBlock] true false bound
      return item :: (← blockItems bound)
    | some .closeBlock => skip; return []
    | _ => failure

/-- The items of a block sequence that nothing closes. -/
def unindentedItems : (bound : Nat) → Reader (List Node)
  | 0 => failure
  | bound + 1 => do
    match ← peek with
    | some .blockEntry =>
      skip
      let item ← nodeUnless [.blockEntry, .key, .value, .closeBlock] true false bound
      return item :: (← unindentedItems bound)
    | _ => return []

/-- The entries up to the close of a block mapping. -/
def blockEntries : (bound : Nat) → Reader (List (Node × Node))
  | 0 => failure
  | bound + 1 => do
    match ← peek with
    | some .key =>
      skip
      let key ← nodeUnless [.key, .value, .closeBlock] true true bound
      let value ← blockValue bound
      return (key, value) :: (← blockEntries bound)
    | some .closeBlock => skip; return []
    | _ => failure

/-- The value in a block mapping. -/
def blockValue : (bound : Nat) → Reader Node
  | 0 => failure
  | bound + 1 => do
    if ← isNext [.value] then
      skip
      nodeUnless [.key, .value, .closeBlock] true true bound
    else return .missing

/-- The items up to the close of a flow sequence; a comma stands before all but
the first. -/
def flowItems (isFirst : Bool) : (bound : Nat) → Reader (List Node)
  | 0 => failure
  | bound + 1 => do
    if ← isNext [.closeFlowSequence] then
      skip
      return []
    if !isFirst then expect .flowEntry
    match ← peek with
    | some .closeFlowSequence => skip; return []
    | some .key =>
      skip
      let entry ← singleEntry bound
      return .mapping [entry] :: (← flowItems false bound)
    | _ =>
      let item ← node false false bound
      return item :: (← flowItems false bound)

/-- The entry of a mapping that is written as an item of a flow sequence.  A
token that stands in the place of a missing key is passed over. -/
def singleEntry : (bound : Nat) → Reader (Node × Node)
  | 0 => failure
  | bound + 1 => do
    let isMissing ← isNext [.value, .flowEntry, .closeFlowSequence]
    if isMissing then skip
    let key ← if isMissing then pure .missing else node false false bound
    if ← isNext [.value] then
      skip
      return (key, ← nodeUnless [.flowEntry, .closeFlowSequence] false false bound)
    else return (key, .missing)

/-- The entries up to the close of a flow mapping; a comma stands before all but
the first. -/
def flowEntries (isFirst : Bool) : (bound : Nat) → Reader (List (Node × Node))
  | 0 => failure
  | bound + 1 => do
    if ← isNext [.closeFlowMapping] then
      skip
      return []
    if !isFirst then expect .flowEntry
    match ← peek with
    | some .closeFlowMapping => skip; return []
    | some .key =>
      skip
      let key ← nodeUnless [.value, .flowEntry, .closeFlowMapping] false false bound
      let value ← flowValue bound
      return (key, value) :: (← flowEntries false bound)
    | _ =>
      let key ← node false false bound
      return (key, .missing) :: (← flowEntries false bound)

/-- The value in a flow mapping. -/
def flowValue : (bound : Nat) → Reader Node
  | 0 => failure
  | bound + 1 => do
    if ← isNext [.value] then
      skip
      nodeUnless [.flowEntry, .closeFlowMapping] false false bound
    else return .missing

end

/-! ## Documents -/

/-- The directives before a document: at most one version, which has to be 1.1
or 1.2, and each handle at most once. -/
def directives : (hasVersion : Bool) → List Token → Reader Unit
  | hasVersion, .versionDirective major minor :: rest => do
    if hasVersion || major != 1 || (minor != 1 && minor != 2) then failure
    skip
    directives true rest
  | hasVersion, .tagDirective handle :: rest => do
    if (← get).handles.contains handle then failure
    modify fun reading => { reading with handles := handle :: reading.handles }
    skip
    directives hasVersion rest
  | _, _ => pure ()

/-- The root of the document, none if there is no document. -/
def root (bound : Nat) : Reader (Option Node) := do
  match ← peek with
  | none => return none
  | some (.versionDirective ..) | some (.tagDirective _) | some .documentStart =>
    directives false (← get).tokens
    expect .documentStart
    match ← peek with
    | none | some (.versionDirective ..) | some (.tagDirective _) | some .documentStart
    | some .documentEnd => return some .missing
    | _ => return some (← node true false bound)
  | _ => return some (← node true false bound)

end Reader

/-- A document and its anchored nodes. -/
structure Document where
  root : Option Node
  anchored : List (Nat × Node)

/-- The only document of a text; behind it nothing but end markers may stand. -/
def Document.ofText? (text : String) : Option Document := do
  let tokens ← tokens? text
  let (root, reading) ← (Reader.root (3 * tokens.length + 3)).run { tokens, handles := [] }
  if (reading.tokens.dropWhile (· == .documentEnd)).isEmpty then
    return ⟨root, reading.anchored⟩
  else none

end Yaml

end ActivityCatalogue
