import HostRoster.Yaml.Node
import HostRoster.Yaml.Token.Reader

/-!
# Reading a document

The tokens of a text have to spell one document. Every call of a reader below takes a
token before it goes deeper, so twice the number of tokens bounds the depth of calls.
-/
namespace HostRoster.Yaml

/-- The tokens that are left and the anchors met so far. -/
structure NodeState where
  tokens : List Token
  /-- The names of the anchors met, each with the number of the node it stands for. -/
  anchors : List (String × Nat) := []

abbrev NodeReader := StateT NodeState Option

namespace NodeReader

def peek : NodeReader (Option Token) := do return (← get).tokens.head?

def skip : NodeReader Unit := modify fun s => { s with tokens := s.tokens.tail }

/-- Gives a name to the node that starts here. It is numbered by how many names were
known before. -/
def define (name : String) : NodeReader Nat := do
  let s ← get
  let id := s.anchors.length
  set { s with anchors := s.anchors.filter (fun (a : String × Nat) => a.1 ≠ name) ++ [(name, id)] }
  return id

/-- The number of the node that a name stands for. -/
def known (name : String) : NodeReader Nat := do
  match (← get).anchors.lookup name with
  | some id => return id
  | none => failure

def readAnchor : NodeReader (Option String) := do
  match ← peek with
  | some (.anchor name) => skip; return some name
  | _ => return none

/-- Reads a tag, if there is one, spelled out by the handles. -/
def readTag (handles : List (String × String)) : NodeReader (Option String) := do
  match ← peek with
  | some (.tag "" text) => skip; return some text
  | some (.tag handle text) =>
    skip
    match handles.lookup handle with
    | some start => return some (start ++ text)
    | none => failure
  | _ => return none

/-- An anchor and a tag, in either order. -/
def readProperties (handles : List (String × String)) :
    NodeReader (Option String × Option String) := do
  match ← readAnchor with
  | some name => return (some name, ← readTag handles)
  | none =>
    let tag ← readTag handles
    return (← readAnchor, tag)

/-- A node, or nothing when a token follows that ends its place. -/
def orEmpty (stops : List Token) (read : NodeReader Node) : NodeReader Node := do
  if (← peek).any stops.contains then return .empty else read

/-- The value after a colon, or nothing when there is no colon. -/
def readValue (stops : List Token) (read : NodeReader Node) : NodeReader Node := do
  match ← peek with
  | some .value => skip; orEmpty stops read
  | _ => return .empty

/-- Goes over the comma before every entry but the first. -/
def separate (first : Bool) : NodeReader Unit := do
  if first then return
  match ← peek with
  | some .flowEntry => skip
  | _ => failure

mutual

/-- Reads a node. Only where a block may start do the tokens of blocks count; a sequence
that is a value may stand at the indentation of its key. -/
def readNode (handles : List (String × String)) :
    Nat → (block indentless : Bool) → NodeReader Node
  | 0, _, _ => failure
  | fuel + 1, block, indentless => do
    match ← peek with
    | some (.alias name) => skip; return .alias (← known name)
    | _ =>
      let (name, tag) ← readProperties handles
      let anchor ← name.mapM define
      match ← peek with
      | some .blockEntry =>
        if indentless then return .sequence anchor tag (← readIndentless handles fuel)
        else if anchor.isSome || tag.isSome then return .scalar anchor tag .plain ""
        else failure
      | some (.scalar style text) =>
        skip
        return .scalar anchor (tag.filter (· ≠ "!")) style text
      | some .flowSequence => skip; return .sequence anchor tag (← readFlowItems handles fuel true)
      | some .flowMapping => skip; return .mapping anchor tag (← readFlowEntries handles fuel true)
      | some .blockSequence =>
        if block then skip; return .sequence anchor tag (← readBlockItems handles fuel)
        else if anchor.isSome || tag.isSome then return .scalar anchor tag .plain ""
        else failure
      | some .blockMapping =>
        if block then skip; return .mapping anchor tag (← readBlockEntries handles fuel)
        else if anchor.isSome || tag.isSome then return .scalar anchor tag .plain ""
        else failure
      | _ =>
        if anchor.isSome || tag.isSome then return .scalar anchor tag .plain "" else failure

def readBlockItems (handles : List (String × String)) : Nat → NodeReader (List Node)
  | 0 => failure
  | fuel + 1 => do
    match ← peek with
    | some .blockEntry =>
      skip
      let item ← orEmpty [.blockEntry, .blockEnd] (readNode handles fuel true false)
      return item :: (← readBlockItems handles fuel)
    | some .blockEnd => skip; return []
    | _ => failure

/-- The items of a sequence at the indentation of its key. -/
def readIndentless (handles : List (String × String)) : Nat → NodeReader (List Node)
  | 0 => failure
  | fuel + 1 => do
    match ← peek with
    | some .blockEntry =>
      skip
      let item ← orEmpty [.blockEntry, .key, .value, .blockEnd] (readNode handles fuel true false)
      return item :: (← readIndentless handles fuel)
    | _ => return []

def readBlockEntries (handles : List (String × String)) :
    Nat → NodeReader (List (Node × Node))
  | 0 => failure
  | fuel + 1 => do
    match ← peek with
    | some .key =>
      skip
      let key ← orEmpty [.key, .value, .blockEnd] (readNode handles fuel true true)
      let value ← readValue [.key, .value, .blockEnd] (readNode handles fuel true true)
      return (key, value) :: (← readBlockEntries handles fuel)
    | some .blockEnd => skip; return []
    | _ => failure

/-- The items of a sequence in brackets. A single pair may stand for a mapping. -/
def readFlowItems (handles : List (String × String)) : Nat → Bool → NodeReader (List Node)
  | 0, _ => failure
  | fuel + 1, first => do
    if (← peek) == some .flowSequenceEnd then skip; return []
    separate first
    match ← peek with
    | some .flowSequenceEnd => skip; return []
    | some .key =>
      skip
      let stops := [.flowEntry, .flowSequenceEnd]
      let key ← do
        if (← peek).any ([.value, .flowEntry, .flowSequenceEnd].contains ·) then
          skip; pure .empty
        else readNode handles fuel false false
      let value ← readValue stops (readNode handles fuel false false)
      return .mapping none none [(key, value)] :: (← readFlowItems handles fuel false)
    | _ =>
      let item ← readNode handles fuel false false
      return item :: (← readFlowItems handles fuel false)

/-- The entries of a mapping in braces. A key may stand without a value. -/
def readFlowEntries (handles : List (String × String)) :
    Nat → Bool → NodeReader (List (Node × Node))
  | 0, _ => failure
  | fuel + 1, first => do
    if (← peek) == some .flowMappingEnd then skip; return []
    separate first
    match ← peek with
    | some .flowMappingEnd => skip; return []
    | some .key =>
      skip
      let key ← orEmpty [.value, .flowEntry, .flowMappingEnd] (readNode handles fuel false false)
      let value ← readValue [.flowEntry, .flowMappingEnd] (readNode handles fuel false false)
      return (key, value) :: (← readFlowEntries handles fuel false)
    | _ =>
      let key ← readNode handles fuel false false
      return (key, .empty) :: (← readFlowEntries handles fuel false)

end

/-- Reads directives up to the start of a document: whether a version was given, and the
handles. -/
def readDirectives : Bool → List (String × String) → List Token →
    Option (List (String × String) × List Token)
  | versioned, handles, .version major minor :: rest =>
    if versioned || major ≠ 1 || (minor ≠ 1 && minor ≠ 2) then none
    else readDirectives true handles rest
  | versioned, handles, .tagHandle handle tagStart :: rest =>
    if (handles.lookup handle).isSome then none
    else readDirectives versioned (handles ++ [(handle, tagStart)]) rest
  | _, handles, .documentStart :: rest => some (handles, rest)
  | _, _, _ => none

/-- The handles that need no directive. -/
def standardHandles : List (String × String) := [("!", "!"), ("!!", "tag:yaml.org,2002:")]

def readRoot (handles : List (String × String)) (tokens : List Token) :
    Option (Node × List Token) := do
  let (node, s) ← (readNode (handles ++ standardHandles) (2 * tokens.length + 2) true false).run
    { tokens }
  return (node, s.tokens)

/-- Whether a token cannot belong to a node that has just been announced. -/
def endsContent : Token → Bool
  | .version .. => true
  | .tagHandle .. => true
  | .documentStart => true
  | .documentEnd => true
  | _ => false

/-- Reads a document that begins with directives or the mark of its start. -/
def readExplicit (tokens : List Token) : Option (Node × List Token) := do
  let (handles, rest) ← readDirectives false [] tokens
  if rest.head?.all endsContent then return (.empty, rest) else readRoot handles rest

/-- Reads the first document of a text, which is empty when the text is. -/
def readFirst (tokens : List Token) : Option (Node × List Token) :=
  match tokens with
  | [] => some (.empty, [])
  | .version .. :: _ => readExplicit tokens
  | .tagHandle .. :: _ => readExplicit tokens
  | .documentStart :: _ => readExplicit tokens
  | _ => readRoot [] tokens

end NodeReader

/-- The document of a text that holds no other. -/
def readDocument (text : String) : Option Node := do
  let (root, rest) ← NodeReader.readFirst (← readTokens text)
  if rest.all (· == .documentEnd) then return root else none

end HostRoster.Yaml
