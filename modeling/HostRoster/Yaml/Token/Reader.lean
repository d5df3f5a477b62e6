import HostRoster.Yaml.Token

/-!
# Reading tokens

What starts on a line may turn out to be a key only when a colon follows it on the
same line. So wherever a key may start, the reader notes the place, and puts the
token that announces the key there once the colon is met. Inside brackets every
level has a place of its own; outside them, indentation opens and closes blocks.
-/
namespace HostRoster.Yaml

/-- A place where a key may have started. -/
structure KeyPlace where
  /-- How many tokens come before it. -/
  position : Nat
  mark : Mark
  /-- Whether nothing but a key can stand there. -/
  required : Bool
deriving Repr

/-- Where the reader stands, and what it has read. -/
structure TokenReader where
  cursor : Cursor
  tokens : Array Token := #[]
  /-- The columns of the open blocks, the innermost first. -/
  blocks : List Nat := []
  /-- The place where a key may have started, on this level of brackets. -/
  place : Option KeyPlace := none
  /-- The same for the levels around this one. -/
  outer : List (Option KeyPlace) := []
  /-- Whether a key may start here. -/
  keyAllowed : Bool := true

namespace TokenReader

def inFlow (r : TokenReader) : Bool := !r.outer.isEmpty

def push (r : TokenReader) (t : Token) : TokenReader := { r with tokens := r.tokens.push t }

/-- Goes over one character and puts its token. -/
def pushMark (r : TokenReader) (t : Token) : TokenReader :=
  { r.push t with cursor := r.cursor.skip 1 }

/-- Puts a token among those already read. -/
def putAt (r : TokenReader) (position : Nat) (t : Token) : TokenReader :=
  { r with tokens := (r.tokens.extract 0 position).push t ++ r.tokens.extract position }

/-- Opens a block at a column that lies deeper than the blocks around it. -/
def openBlock (r : TokenReader) (column position : Nat) (t : Token) : TokenReader :=
  if !r.inFlow && r.blocks.head?.all (· < column) then
    { r.putAt position t with blocks := column :: r.blocks }
  else r

def openBlockHere (r : TokenReader) (t : Token) : TokenReader :=
  r.openBlock r.cursor.mark.column r.tokens.size t

/-- How many of the open blocks lie deeper than a column. -/
def deeperThan (column : Option Nat) (blocks : List Nat) : Nat :=
  (blocks.takeWhile fun b => column.all (· < b)).length

/-- Closes the blocks that lie deeper than a column, or all of them. -/
def closeBlocks (r : TokenReader) (column : Option Nat) : TokenReader :=
  if r.inFlow then r
  else
    let n := deeperThan column r.blocks
    { r with
      tokens := r.tokens ++ Array.replicate n Token.blockEnd
      blocks := r.blocks.drop n }

/-- Gives up the noted place; a required key must not be given up. -/
def dropPlace (r : TokenReader) : Option TokenReader :=
  if r.place.any (·.required) then none else some { r with place := none }

def notePlace (r : TokenReader) : Option TokenReader :=
  if r.keyAllowed then do
    let r ← r.dropPlace
    let required := !r.inFlow && r.blocks.head? == some r.cursor.mark.column
    return { r with place := some ⟨r.tokens.size, r.cursor.mark, required⟩ }
  else some r

/-- Whether a key noted at a place can no longer be announced: it has to end on its line
and within 1024 characters. -/
def isStale (now : Mark) (place : KeyPlace) : Bool :=
  place.mark.line < now.line || place.mark.index + 1024 < now.index

/-- Gives up a place that has become stale. -/
def refreshPlace (now : Mark) : Option KeyPlace → Option (Option KeyPlace)
  | none => some none
  | some place =>
    if isStale now place then if place.required then none else some none
    else some (some place)

/-- Gives up every place that has become stale. -/
def refreshPlaces (r : TokenReader) : Option TokenReader := do
  return { r with
    place := ← refreshPlace r.cursor.mark r.place
    outer := ← r.outer.mapM (refreshPlace r.cursor.mark) }

/-- Goes over blanks, comments and empty lines. A tab must not stand where a key may start
outside brackets. -/
def skipToToken : Nat → TokenReader → TokenReader
  | 0, r => r
  | fuel + 1, r =>
    let tabs := r.inFlow || !r.keyAllowed
    let c := (r.cursor.span fun d => d == ' ' || (tabs && d == '\t')).2.skipComment
    match c.rest with
    | d :: _ =>
      if isBreak d then
        skipToToken fuel { r with cursor := c.skipBreak, keyAllowed := r.keyAllowed || !r.inFlow }
      else { r with cursor := c }
    | [] => { r with cursor := c }

def openFlow (r : TokenReader) (t : Token) : Option TokenReader := do
  let r ← r.notePlace
  return { r.pushMark t with place := none, outer := r.place :: r.outer, keyAllowed := true }

def closeFlow (r : TokenReader) (t : Token) : Option TokenReader := do
  let r ← r.dropPlace
  let r := { r.pushMark t with keyAllowed := false }
  match r.outer with
  | place :: outer => return { r with place, outer }
  | [] => return r

def flowEntry (r : TokenReader) : Option TokenReader := do
  return { (← r.dropPlace).pushMark .flowEntry with keyAllowed := true }

def blockEntry (r : TokenReader) : Option TokenReader := do
  if !r.inFlow && !r.keyAllowed then none
  let r ← (r.openBlockHere .blockSequence).dropPlace
  return { r.pushMark .blockEntry with keyAllowed := true }

/-- The mark of a key that may take several lines. -/
def explicitKey (r : TokenReader) : Option TokenReader := do
  if !r.inFlow && !r.keyAllowed then none
  let r ← (r.openBlockHere .blockMapping).dropPlace
  return { r.pushMark .key with keyAllowed := !r.inFlow }

/-- The colon: it announces the noted key, or follows one that was marked. -/
def value (r : TokenReader) : Option TokenReader :=
  match r.place with
  | some place =>
    let r := (r.putAt place.position .key).openBlock place.mark.column place.position .blockMapping
    some { r.pushMark .value with place := none, keyAllowed := false }
  | none => do
    if !r.inFlow && !r.keyAllowed then none
    return { (r.openBlockHere .blockMapping).pushMark .value with keyAllowed := !r.inFlow }

/-- Puts a token that may be a key, or part of one. -/
def node (r : TokenReader) (read : Cursor → Option (Token × Cursor)) : Option TokenReader := do
  let r ← r.notePlace
  let (token, cursor) ← read r.cursor
  return { r.push token with cursor, keyAllowed := false }

def plain (r : TokenReader) : Option TokenReader := do
  let r ← r.notePlace
  let s ← readPlain r.inFlow (r.blocks.head?.elim 0 (· + 1)) r.cursor.rest r.cursor.mark .none []
  return { r.push (.scalar .plain s.text) with cursor := s.after, keyAllowed := s.endsLine }

def quoted (r : TokenReader) (single : Bool) : Option TokenReader :=
  r.node fun c => do
    let start := c.skip 1
    let (text, after) ← readQuoted single start.rest start.mark .outside .none []
    return (.scalar .quoted text, after)

def block (r : TokenReader) (fold : Bool) : Option TokenReader := do
  let r ← r.dropPlace
  let (text, cursor) ← readBlock fold r.blocks.head? (r.cursor.skip 1)
  return { r.push (.scalar (if fold then .folded else .literal) text) with
    cursor, keyAllowed := true }

/-- Ends every block, as the start and the end of a document do. -/
def endBlocks (r : TokenReader) : Option TokenReader := do
  return { (← (r.closeBlocks none).dropPlace) with keyAllowed := false }

def directive (r : TokenReader) : Option TokenReader := do
  let r ← r.endBlocks
  let (token, cursor) ← readDirective r.cursor
  return { r.push token with cursor }

def documentMark (r : TokenReader) (t : Token) : Option TokenReader := do
  let r ← r.endBlocks
  return { r.push t with cursor := r.cursor.skip 3 }

/-- Whether a plain scalar may start with a character that some text follows. -/
def startsPlain (flow : Bool) (c : Char) (rest : List Char) : Bool :=
  !("-?:,[]\x7b\x7d#&*!|>'\"%@`".contains c || startsBlank (c :: rest)) ||
    (c == '-' && !(rest.head?.any isBlank)) ||
    (!flow && (c == '?' || c == ':') && !startsBlank rest)

/-- Reads the next token, given that one starts here. -/
def readToken (r : TokenReader) (c : Char) (rest : List Char) : Option TokenReader :=
  let alone := startsBlank rest
  let atStart := r.cursor.mark.column = 0
  if atStart ∧ c = '%' then r.directive
  else if atStart ∧ startsTriple '-' (c :: rest) then r.documentMark .documentStart
  else if atStart ∧ startsTriple '.' (c :: rest) then r.documentMark .documentEnd
  else if c = '[' then r.openFlow .flowSequence
  else if c = '\x7b' then r.openFlow .flowMapping
  else if c = ']' then r.closeFlow .flowSequenceEnd
  else if c = '\x7d' then r.closeFlow .flowMappingEnd
  else if c = ',' then r.flowEntry
  else if c = '-' ∧ alone then r.blockEntry
  else if c = '?' ∧ (r.inFlow ∨ alone) then r.explicitKey
  else if c = ':' ∧ (r.inFlow ∨ alone) then r.value
  else if c = '*' then r.node fun d => (readName d).map fun n => (.alias n.1, n.2)
  else if c = '&' then r.node fun d => (readName d).map fun n => (.anchor n.1, n.2)
  else if c = '!' then r.node (readTag r.inFlow)
  else if c = '|' ∧ !r.inFlow then r.block false
  else if c = '>' ∧ !r.inFlow then r.block true
  else if c = '\'' then r.quoted true
  else if c = '"' then r.quoted false
  else if startsPlain r.inFlow c rest then r.plain
  else none

/-- The end of the text: every block ends on a line of its own. -/
def finish (r : TokenReader) : Option (List Token) := do
  return (← r.endBlocks).tokens.toList

def readAll : Nat → TokenReader → Option (List Token)
  | 0, _ => none
  | fuel + 1, r => do
    let r := r.skipToToken (r.cursor.rest.length + 1)
    let r ← r.refreshPlaces
    let r := r.closeBlocks r.cursor.mark.column
    match r.cursor.rest with
    | [] => r.finish
    | c :: rest => readAll fuel (← r.readToken c rest)

end TokenReader

def readTokens (text : String) : Option (List Token) :=
  let chars := dropMark text.toList
  if chars.all isAllowed then
    let chars := unifyBreaks chars
    let start : Cursor := ⟨chars, {}⟩
    let cursor := if chars.head? = some byteOrderMark then start.skip 1 else start
    TokenReader.readAll (chars.length + 1) { cursor }
  else none

end HostRoster.Yaml
