/-!
# Positions in a YAML text

YAML gives meaning to columns, so whoever reads it has to know where it stands.
Before reading, a text is brought to one form: carriage returns and next-line
characters become line feeds, and a byte order mark in front is dropped.
-/
namespace HostRoster.Yaml

/-- The characters that a text may hold. -/
def isAllowed (c : Char) : Bool :=
  let n := c.toNat
  n == 0x09 || n == 0x0A || n == 0x0D || (0x20 ≤ n && n ≤ 0x7E) || n == 0x85 ||
    (0xA0 ≤ n && n ≤ 0xFFFD) || 0x10000 ≤ n

/-- Line ends other than a line feed become line feeds. -/
def unifyBreaks : List Char → List Char
  | [] => []
  | '\r' :: '\n' :: rest => '\n' :: unifyBreaks rest
  | '\r' :: rest => '\n' :: unifyBreaks rest
  | '\u0085' :: rest => '\n' :: unifyBreaks rest
  | c :: rest => c :: unifyBreaks rest

def byteOrderMark : Char := '\ufeff'

/-- The text without a byte order mark in front. -/
def dropMark : List Char → List Char
  | c :: rest => if c = byteOrderMark then rest else c :: rest
  | [] => []

def isBreak (c : Char) : Bool := c == '\n' || c == '\u2028' || c == '\u2029'

/-- A space or a tab. -/
def isBlank (c : Char) : Bool := c == ' ' || c == '\t'

/-- The characters of names: letters, digits, underscores and hyphens. -/
def isWord (c : Char) : Bool := c.isAlphanum || c == '_' || c == '-'

def startsBlank : List Char → Bool
  | [] => true
  | c :: _ => isBlank c || isBreak c

def startsBreak : List Char → Bool
  | [] => true
  | c :: _ => isBreak c

/-- Whether a text starts with three marks and then a blank, a line end or nothing. -/
def startsTriple (mark : Char) : List Char → Bool
  | a :: b :: c :: rest => a == mark && b == mark && c == mark && startsBlank rest
  | _ => false

/-- Whether a line starts with the beginning or the end of a document. -/
def startsDocumentMark (text : List Char) : Bool :=
  startsTriple '-' text || startsTriple '.' text

/-- A position: how many characters came before, and on which line and column it lies. -/
structure Mark where
  index : Nat := 0
  line : Nat := 0
  column : Nat := 0
deriving DecidableEq, Repr, Inhabited

def Mark.after (m : Mark) (c : Char) : Mark :=
  if isBreak c then ⟨m.index + 1, m.line + 1, 0⟩ else ⟨m.index + 1, m.line, m.column + 1⟩

def Mark.advance (m : Mark) (n : Nat) : Mark :=
  { m with index := m.index + n, column := m.column + n }

/-- A position together with the text after it. -/
structure Cursor where
  rest : List Char
  mark : Mark := {}
deriving Inhabited

namespace Cursor

/-- The position after `n` characters of the line. -/
def skip (c : Cursor) (n : Nat) : Cursor := ⟨c.rest.drop n, c.mark.advance n⟩

/-- The characters that satisfy a test, and the position after them. The test must not
hold of a line end. -/
def span (c : Cursor) (p : Char → Bool) : List Char × Cursor :=
  let found := c.rest.takeWhile p
  (found, c.skip found.length)

def skipBlanks (c : Cursor) : Cursor := (c.span isBlank).2

/-- The position after a comment, if one starts here. -/
def skipComment (c : Cursor) : Cursor :=
  match c.rest with
  | '#' :: _ => (c.span fun d => !isBreak d).2
  | _ => c

/-- The position after a line end, if there is one. -/
def skipBreak (c : Cursor) : Cursor :=
  match c.rest with
  | d :: rest => if isBreak d then ⟨rest, c.mark.after d⟩ else c
  | [] => c

/-- The start of the next line, given that nothing but blanks and a comment is left on
this one. -/
def endLine? (c : Cursor) : Option Cursor :=
  let c := c.skipBlanks.skipComment
  if startsBreak c.rest then some c.skipBreak else none

end Cursor

end HostRoster.Yaml
