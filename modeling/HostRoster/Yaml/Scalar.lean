import HostRoster.Yaml.Cursor

/-!
# Scalars

A scalar is written plain, in quotes or as a block of lines. In plain and quoted
ones a single line end counts as a space and further line ends as themselves; in a
literal block line ends are kept, in a folded block they are folded between lines
that start without a blank.
-/
namespace HostRoster.Yaml

inductive Style where
  | plain
  | quoted
  | literal
  | folded
deriving DecidableEq, Repr

/-- White space between the words of a scalar. -/
inductive Gap where
  /-- Blanks within a line, the latest first. -/
  | blanks (reversed : List Char)
  /-- A first line end, if it counts, and those after it, the latest first. -/
  | breaks (first : Option Char) (reversed : List Char)

namespace Gap

def none : Gap := .blanks []

def isEmpty : Gap → Bool
  | blanks [] => true
  | _ => false

def hasBreak : Gap → Bool
  | blanks _ => false
  | breaks .. => true

/-- Takes in a blank; after a line end blanks are indentation. -/
def addBlank (c : Char) : Gap → Gap
  | blanks reversed => blanks (c :: reversed)
  | g => g

/-- Takes in a line end; the blanks before the first one are dropped. -/
def addBreak (c : Char) : Gap → Gap
  | blanks _ => breaks (some c) []
  | breaks first reversed => breaks first (c :: reversed)

/-- What a gap stands for: a lone line feed is folded to a space. -/
def folded : Gap → List Char
  | blanks reversed => reversed.reverse
  | breaks (some '\n') [] => [' ']
  | breaks (some '\n') reversed => reversed.reverse
  | breaks first reversed => first.toList ++ reversed.reverse

end Gap

/-- The text of a scalar read so far, the latest character first. -/
def joinGap (text : List Char) (g : Gap) : List Char := g.folded.reverse ++ text

/-- What was read of a plain scalar. -/
structure PlainScalar where
  text : String
  /-- Whether a line end was passed after the last word. -/
  endsLine : Bool
  after : Cursor

/-- Whether a character ends a plain scalar inside brackets. -/
def isFlowMark (c : Char) : Bool := c == ',' || c == '[' || c == ']' || c == '\x7b' || c == '\x7d'

/-- Whether a plain scalar ends before a character that some text follows. -/
def endsPlain (flow : Bool) (c : Char) (rest : List Char) : Bool :=
  (c == ':' && startsBlank rest) || (flow && isFlowMark c)

/-- Whether a colon stands before a mark that it must not stand before inside brackets. -/
def isStrayColon (flow : Bool) (c : Char) (rest : List Char) : Bool :=
  flow && c == ':' && rest.head?.any fun d => isFlowMark d || d == '?'

/-- Reads a plain scalar. Its lines after the first are indented by `indent` at least,
unless it stands inside brackets. -/
def readPlain (flow : Bool) (indent : Nat) :
    List Char → Mark → Gap → List Char → Option PlainScalar
  | [], m, g, text => some ⟨.ofList text.reverse, g.hasBreak, ⟨[], m⟩⟩
  | c :: rest, m, g, text =>
    if isBreak c then readPlain flow indent rest (m.after c) (g.addBreak c) text
    else if isBlank c then
      if c = '\t' ∧ g.hasBreak ∧ m.column < indent then none
      else readPlain flow indent rest (m.after c) (g.addBlank c) text
    else
      let here : PlainScalar := ⟨.ofList text.reverse, g.hasBreak, ⟨c :: rest, m⟩⟩
      if !g.isEmpty && (c == '#' || (!flow && m.column < indent) ||
          (m.column == 0 && startsDocumentMark (c :: rest))) then some here
      else if isStrayColon flow c rest then none
      else if endsPlain flow c rest then some here
      else readPlain flow indent rest (m.after c) .none (c :: joinGap text g)

def hexValue (c : Char) : Option Nat :=
  if '0' ≤ c ∧ c ≤ '9' then some (c.toNat - '0'.toNat)
  else if 'a' ≤ c ∧ c ≤ 'f' then some (c.toNat - 'a'.toNat + 10)
  else if 'A' ≤ c ∧ c ≤ 'F' then some (c.toNat - 'A'.toNat + 10)
  else none

def letterEscape : Char → Option Char
  | '0' => some '\x00'
  | 'a' => some '\x07'
  | 'b' => some '\x08'
  | 't' => some '\t'
  | '\t' => some '\t'
  | 'n' => some '\n'
  | 'v' => some '\x0b'
  | 'f' => some '\x0c'
  | 'r' => some '\r'
  | 'e' => some '\x1b'
  | ' ' => some ' '
  | '"' => some '"'
  | '/' => some '/'
  | '\\' => some '\\'
  | 'N' => some '\u0085'
  | '_' => some '\u00a0'
  | 'L' => some '\u2028'
  | 'P' => some '\u2029'
  | _ => none

def escapeLength : Char → Option Nat
  | 'x' => some 2
  | 'u' => some 4
  | 'U' => some 8
  | _ => none

def charOfCode? (n : Nat) : Option Char := if n.isValidChar then some (.ofNat n) else none

/-- Where the reader of a quoted scalar stands. -/
inductive QuotedState where
  | outside
  /-- After a backslash. -/
  | escape
  /-- Inside the digits of an escape: how many are left, and the value so far. -/
  | digits (left value : Nat)
  /-- After the first of two single quotes. -/
  | quote

/-- Reads a quoted scalar after its opening quote. -/
def readQuoted (single : Bool) :
    List Char → Mark → QuotedState → Gap → List Char → Option (String × Cursor)
  | [], _, _, _, _ => none
  | c :: rest, m, .escape, g, text =>
    if isBreak c then readQuoted single rest (m.after c) .outside (.breaks none []) (joinGap text g)
    else
      match escapeLength c with
      | some n => readQuoted single rest (m.after c) (.digits n 0) g text
      | none => do
        readQuoted single rest (m.after c) .outside .none ((← letterEscape c) :: joinGap text g)
  | c :: rest, m, .digits left value, g, text => do
    let value := 16 * value + (← hexValue c)
    if left ≤ 1 then
      readQuoted single rest (m.after c) .outside .none ((← charOfCode? value) :: joinGap text g)
    else readQuoted single rest (m.after c) (.digits (left - 1) value) g text
  | c :: rest, m, .quote, g, text =>
    readQuoted single rest (m.after c) .outside .none (c :: joinGap text g)
  | c :: rest, m, .outside, g, text =>
    if m.column == 0 && startsDocumentMark (c :: rest) then none
    else if isBreak c then readQuoted single rest (m.after c) .outside (g.addBreak c) text
    else if isBlank c then readQuoted single rest (m.after c) .outside (g.addBlank c) text
    else if single then
      if c = '\'' then
        if rest.head? = some '\'' then readQuoted single rest (m.after c) .quote g text
        else some (.ofList (joinGap text g).reverse, ⟨rest, m.after c⟩)
      else readQuoted single rest (m.after c) .outside .none (c :: joinGap text g)
    else if c = '"' then some (.ofList (joinGap text g).reverse, ⟨rest, m.after c⟩)
    else if c = '\\' then readQuoted single rest (m.after c) .escape g text
    else readQuoted single rest (m.after c) .outside .none (c :: joinGap text g)

/-- What becomes of the line ends at the end of a block. -/
inductive Chomping where
  | strip
  | clip
  | keep
deriving DecidableEq, Repr

/-- The line ends before the next line of a block, and the deepest column met. -/
structure BlockGap where
  breaks : List Char
  deepest : Nat
  after : Cursor

/-- Skips indentation up to a column, if one is set, and collects line ends. -/
def readBlockGap (indent : Option Nat) :
    List Char → Mark → List Char → Nat → Option BlockGap
  | [], m, breaks, deepest => some ⟨breaks.reverse, max deepest m.column, ⟨[], m⟩⟩
  | c :: rest, m, breaks, deepest =>
    let inside := indent.all (m.column < ·)
    if inside && c == ' ' then readBlockGap indent rest (m.after c) breaks deepest
    else if inside && c == '\t' then none
    else if isBreak c then
      readBlockGap indent rest (m.after c) (c :: breaks) (max deepest m.column)
    else some ⟨breaks.reverse, max deepest m.column, ⟨c :: rest, m⟩⟩

/-- The header of a block: how it ends and how far it is indented. -/
def readBlockHeader (c : Cursor) : Option (Chomping × Option Nat × Cursor) := do
  let chomping (c : Cursor) : Option Chomping × Cursor :=
    match c.rest with
    | '+' :: _ => (some .keep, c.skip 1)
    | '-' :: _ => (some .strip, c.skip 1)
    | _ => (none, c)
  let indent (c : Cursor) : Option (Option Nat × Cursor) :=
    match c.rest with
    | d :: _ =>
      if d = '0' then none
      else if d.isDigit then some (some (d.toNat - '0'.toNat), c.skip 1)
      else some (none, c)
    | [] => some (none, c)
  let (before, c) := chomping c
  let (width, c) ← indent c
  let (after, c) := if before.isNone && width.isSome then chomping c else (before, c)
  return (after.getD .clip, width, ← c.endLine?)

/-- The lines of a block indented to a column, with the line end that is still to be
written and whether the line before it started with a blank. -/
def readBlockLines (fold : Bool) (indent : Nat) :
    Nat → Cursor → List Char → Option Char → List Char → Bool →
      Option (List Char × Option Char × List Char × Cursor)
  | 0, c, text, pending, gap, _ => some (text, pending, gap, c)
  | fuel + 1, c, text, pending, gap, blankBefore =>
    if c.mark.column ≠ indent ∨ c.rest.isEmpty then some (text, pending, gap, c)
    else
      let blankHere := c.rest.head?.any isBlank
      let joint :=
        if fold && pending == some '\n' && !blankBefore && !blankHere then
          if gap.isEmpty then [' '] else []
        else pending.toList
      let (line, c) := c.span fun d => !isBreak d
      let text := text ++ joint ++ gap ++ line
      match readBlockGap (some indent) c.skipBreak.rest c.skipBreak.mark [] 0 with
      | none => none
      | some next =>
        readBlockLines fold indent fuel next.after text (c.rest.head?) next.breaks blankHere

/-- Reads a block after its mark, given the indentation of the block around it. -/
def readBlock (fold : Bool) (outer : Option Nat) (c : Cursor) : Option (String × Cursor) := do
  let (chomping, width, c) ← readBlockHeader c
  let set := width.map fun n => outer.getD 0 + n
  let first ← readBlockGap set c.rest c.mark [] 0
  let indent := set.getD (max (max first.deepest (outer.elim 0 (· + 1))) 1)
  let (text, pending, gap, c) ←
    readBlockLines fold indent (first.after.rest.length + 1) first.after [] none first.breaks false
  let tail := match chomping with
    | .strip => []
    | .clip => pending.toList
    | .keep => pending.toList ++ gap
  return (.ofList (text ++ tail), c)

end HostRoster.Yaml
