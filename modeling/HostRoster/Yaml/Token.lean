import HostRoster.Yaml.Scalar

/-!
# Tokens

A YAML text is a sequence of marks, names and scalars. Where a block collection
begins or ends there is no mark in the text, only a change of indentation, which
gets a token of its own.
-/
namespace HostRoster.Yaml

inductive Token where
  /-- A directive that gives the version of the language. -/
  | version (major minor : Nat)
  /-- A directive that gives tags of a handle their beginning. -/
  | tagHandle (handle tagStart : String)
  | documentStart
  | documentEnd
  | blockSequence
  | blockMapping
  | blockEnd
  | flowSequence
  | flowSequenceEnd
  | flowMapping
  | flowMappingEnd
  | blockEntry
  | flowEntry
  | key
  | value
  | alias (name : String)
  | anchor (name : String)
  /-- A tag as a handle and what follows it. -/
  | tag (handle suffix : String)
  | scalar (style : Style) (text : String)
deriving DecidableEq, Repr

def isTagChar (verbatim : Bool) (c : Char) : Bool :=
  isWord c || ";/?:@&=+$.%!~*'()".contains c || (verbatim && (c == ',' || c == '[' || c == ']'))

/-- How many bytes a character takes whose first byte is given. -/
def leadingWidth (byte : Nat) : Option Nat :=
  if byte < 0x80 then some 1
  else if 0xC0 ≤ byte ∧ byte < 0xE0 then some 2
  else if 0xE0 ≤ byte ∧ byte < 0xF0 then some 3
  else if 0xF0 ≤ byte ∧ byte < 0xF8 then some 4
  else none

/-- How many bytes of a character are still to come after one more, if it fits there. -/
def bytesLeft (left byte : Nat) : Option Nat :=
  if left = 0 then (leadingWidth byte).map (· - 1)
  else if 0x80 ≤ byte ∧ byte < 0xC0 then some (left - 1)
  else none

/-- Reads the characters of a tag, given how many bytes of an escaped character are still
to come. Each escaped byte is kept as the character of its number. -/
def readTagChars (verbatim : Bool) : Nat → List Char → Option (List Char × List Char)
  | left, '%' :: a :: b :: rest => do
    let byte := 16 * (← hexValue a) + (← hexValue b)
    let (text, rest) ← readTagChars verbatim (← bytesLeft left byte) rest
    return (.ofNat byte :: text, rest)
  | left, c :: rest =>
    if c ≠ '%' ∧ left = 0 ∧ isTagChar verbatim c then do
      let (text, rest) ← readTagChars verbatim 0 rest
      return (c :: text, rest)
    else if c = '%' ∨ left ≠ 0 then none
    else some ([], c :: rest)
  | left, [] => if left = 0 then some ([], []) else none

/-- Reads the characters of a tag at a cursor. -/
def readTagText (verbatim : Bool) (c : Cursor) : Option (List Char × Cursor) := do
  let (text, rest) ← readTagChars verbatim 0 c.rest
  return (text, c.skip (c.rest.length - rest.length))

/-- Reads an exclamation mark, a word and, if it is there, a second exclamation mark. -/
def readHandle (c : Cursor) : Option (List Char × Cursor) :=
  match c.rest with
  | '!' :: _ =>
    let (word, c) := (c.skip 1).span isWord
    match c.rest with
    | '!' :: _ => some ('!' :: word ++ ['!'], c.skip 1)
    | _ => some ('!' :: word, c)
  | _ => none

def isFullHandle (handle : List Char) : Bool := handle.length > 1 && handle.getLast? == some '!'

/-- Reads a tag in angle brackets, after the opening one. -/
def readVerbatimTag (c : Cursor) : Option (Token × Cursor) := do
  let (text, c) ← readTagText true c
  let '>' :: _ := c.rest | none
  if text.isEmpty then none else return (.tag "" (.ofList text), c.skip 1)

/-- Reads a tag with a handle, or with the single exclamation mark for one. -/
def readHandleTag (c : Cursor) : Option (Token × Cursor) := do
  let (handle, c) ← readHandle c
  let (text, c) ← readTagText false c
  if isFullHandle handle then
    if text.isEmpty then none else return (.tag (.ofList handle) (.ofList text), c)
  else
    let suffix := handle.drop 1 ++ text
    if suffix.isEmpty then return (.tag "" "!", c) else return (.tag "!" (.ofList suffix), c)

/-- Reads a tag. A blank has to follow, or a comma inside brackets. -/
def readTag (flow : Bool) (c : Cursor) : Option (Token × Cursor) := do
  let (token, after) ← match c.rest with
    | '!' :: '<' :: _ => readVerbatimTag (c.skip 2)
    | _ => readHandleTag c
  if startsBlank after.rest || (flow && after.rest.head? == some ',') then return (token, after)
  else none

/-- Reads the name of an anchor or an alias after its mark. -/
def readName (c : Cursor) : Option (String × Cursor) :=
  let (name, after) := (c.skip 1).span isWord
  let ended := startsBlank after.rest || after.rest.head?.any ("?:,]\x7d%@`".contains ·)
  if name.isEmpty || !ended then none else some (.ofList name, after)

/-- Reads a number of up to nine digits. -/
def readVersionNumber (c : Cursor) : Option (Nat × Cursor) :=
  let (digits, c) := c.span Char.isDigit
  if digits.isEmpty ∨ digits.length > 9 then none
  else some (digits.foldl (fun n d => 10 * n + (d.toNat - '0'.toNat)) 0, c)

/-- Reads what follows the name of a version directive. -/
def readVersion (c : Cursor) : Option (Token × Cursor) := do
  let (major, c) ← readVersionNumber c.skipBlanks
  let '.' :: _ := c.rest | none
  let (minor, c) ← readVersionNumber (c.skip 1)
  return (.version major minor, c)

/-- Reads what follows the name of a tag directive. -/
def readTagHandle (c : Cursor) : Option (Token × Cursor) := do
  let (handle, c) ← readHandle c.skipBlanks
  if !isFullHandle handle && handle.length > 1 then none
  let spaced := c.skipBlanks
  if spaced.mark = c.mark then none
  let (text, c) ← readTagText true spaced
  if text.isEmpty || !startsBlank c.rest then none
  return (.tagHandle (.ofList handle) (.ofList text), c)

/-- Reads a directive and the rest of its line. -/
def readDirective (c : Cursor) : Option (Token × Cursor) := do
  let (name, c) := (c.skip 1).span isWord
  if name.isEmpty || !startsBlank c.rest then none
  let (token, c) ← match String.ofList name with
    | "YAML" => readVersion c
    | "TAG" => readTagHandle c
    | _ => none
  return (token, ← c.endLine?)

end HostRoster.Yaml
