import HostRoster.Text.Blank

/-!
# Files of variables

A file of variables binds a name to a value on each line. A value may be quoted, may
go on over several lines inside quotes, and may refer to other variables. Reading
gives the bindings up to the first line that cannot be read, and whether all lines
could be.
-/
namespace HostRoster.Dotenv

/-- A part of a value: a character, or the value of a variable. -/
inductive Piece where
  | char (c : Char)
  | reference (name : List Char)
deriving DecidableEq, Repr

/-- A variable and the parts of its value. -/
structure Binding where
  name : String
  value : List Piece
deriving DecidableEq, Repr

/-- Where the end of a line is with respect to quotes. -/
inductive Quoting where
  | plain
  /-- After a blank outside of quotes. -/
  | blank
  | escape
  | single
  | singleEscape
  | double
  | doubleEscape
deriving DecidableEq, Repr

namespace Quoting

/-- What a character outside of quotes leads to. -/
def ofBare : Char → Quoting
  | '\\' => escape
  | '"' => double
  | '\'' => single
  | _ => plain

/-- What a character leads to; none when it starts a comment. -/
def next? : Quoting → Char → Option Quoting
  | plain, c =>
    if Text.isBlank c ∧ c ≠ '\n' ∧ c ≠ '\r' then some blank else some (ofBare c)
  | blank, c => if c = '#' then none else some (ofBare c)
  | escape, _ => some plain
  | single, c => some (if c = '\\' then singleEscape else if c = '\'' then plain else single)
  | singleEscape, _ => some single
  | double, c => some (if c = '\\' then doubleEscape else if c = '"' then plain else double)
  | doubleEscape, _ => some double

/-- Goes over a line. Gives the line up to a comment, and where its end is if it has none. -/
def stripComment : Quoting → List Char → List Char × Option Quoting
  | q, [] => ([], some q)
  | q, c :: rest =>
    match q.next? c with
    | none => ([], none)
    | some q =>
      let (kept, stop) := q.stripComment rest
      (c :: kept, stop)

end Quoting

/-- The lines of a text, each with its line feed. -/
def rawLines : List Char → List (List Char)
  | [] => []
  | c :: rest =>
    if c = '\n' then [c] :: rawLines rest
    else
      match rawLines rest with
      | line :: lines => (c :: line) :: lines
      | [] => [[c]]

/-- A line without its line end. -/
def withoutEnd (line : List Char) : List Char :=
  match line.reverse with
  | '\n' :: '\r' :: rest => rest.reverse
  | '\n' :: rest => rest.reverse
  | _ => line

def isComment (line : List Char) : Bool := (line.dropWhile Text.isBlank).head? == some '#'

/-- Puts lines together that belong to one value. The last line is none if the text ends in the
middle of a value. -/
def joinLines : List Char → Quoting → List (List Char) → List (Option (List Char))
  | _, q, [] => if q = .plain then [] else [none]
  | before, q, line :: rest =>
    if isComment (before ++ line) then joinLines [] .plain rest
    else
      match q.stripComment line with
      | (kept, none) => some (before ++ kept) :: joinLines [] .plain rest
      | (_, some .plain) => some (withoutEnd (before ++ line)) :: joinLines [] .plain rest
      | (_, some q) => joinLines (before ++ line) q rest

/-- Where the reading of a value is. -/
inductive Reading where
  | bare (quoted : Bool)
  | escaped (quoted : Bool)
  | single
  /-- In the name of a variable. -/
  | name (quoted : Bool) (before : List Char)
  /-- In the name of a variable between braces. -/
  | braced (quoted : Bool) (before : List Char)
  /-- After the value, where only blanks and a comment may stand. -/
  | after
deriving DecidableEq, Repr

/-- Blocks of characters that are neither letters nor numbers. -/
def symbolBlocks : List (Nat × Nat) :=
  [(0x80, 0xA9), (0xAB, 0xB1), (0xB4, 0xB4), (0xB6, 0xB8), (0xBB, 0xBB), (0xBF, 0xBF),
    (0xD7, 0xD7), (0xF7, 0xF7), (0x2C2, 0x2C5), (0x300, 0x344), (0x2000, 0x206F),
    (0x20A0, 0x2101), (0x2190, 0x245F), (0x2500, 0x2775), (0x2794, 0x2BFF), (0x3000, 0x3004),
    (0x3008, 0x3020), (0xE000, 0xF8FF), (0xFE00, 0xFE1F), (0xFE30, 0xFE6F), (0xFF01, 0xFF0F),
    (0xFFF0, 0xFFFF), (0x1F000, 0x1F0FF), (0x1F18A, 0x1FBEF), (0xE0000, 0x10FFFF)]

def isNameChar (c : Char) : Bool :=
  c.isAlphanum || (0x80 ≤ c.toNat && symbolBlocks.all fun b => c.toNat < b.1 || b.2 < c.toNat)

def escaped? (c : Char) : Option Char :=
  if c = 'n' then some '\n'
  else if c = '\\' ∨ c = '\'' ∨ c = '"' ∨ c = '$' ∨ c = ' ' then some c
  else none

/-- What a character of a bare or quoted value adds, and where it leads. -/
def readBare (quoted : Bool) (c : Char) : List Piece × Reading :=
  if c = '$' then ([], .name quoted [])
  else if c = '\\' then ([], .escaped quoted)
  else if c = '"' then ([], .bare !quoted)
  else if quoted then ([.char c], .bare true)
  else if c = '\'' then ([], .single)
  else if c = ' ' ∨ c = '\t' then ([], .after)
  else ([.char c], .bare false)

/-- What the first character behind the name of a variable adds, and where it leads. -/
def endName (quoted : Bool) (before : List Char) (c : Char) : List Piece × Reading :=
  if c = '{' ∧ before = [] then ([], .braced quoted [])
  else if c = '$' then ([.reference before], .name quoted [])
  else ([.reference before, .char c], .bare quoted)

/-- What a character adds to a value and where it leads; none if it cannot stand there. -/
def readChar : Reading → Char → Option (List Piece × Reading)
  | .bare quoted, c => some (readBare quoted c)
  | .escaped quoted, c => (escaped? c).map fun c => ([.char c], .bare quoted)
  | .single, c => some (if c = '\'' then ([], .bare false) else ([.char c], .single))
  | .name quoted before, c =>
    some (if isNameChar c then ([], .name quoted (before ++ [c])) else endName quoted before c)
  | .braced quoted before, c =>
    some (if c = '}' then ([.reference before], .bare quoted)
      else ([], .braced quoted (before ++ [c])))
  | .after, c => if c = ' ' ∨ c = '\t' then some ([], .after) else none

/-- What the end of the text adds to a value; none if something is still open. -/
def readEnd : Reading → Option (List Piece)
  | .bare false => some []
  | .escaped false => some []
  | .after => some []
  | .name false before => some [.reference before]
  | _ => none

def readValue : Reading → List Char → Option (List Piece)
  | state, [] => readEnd state
  | state, c :: rest =>
    if state = .after ∧ c = '#' then some []
    else do
      let (pieces, state) ← readChar state c
      return pieces ++ (← readValue state rest)

def isNameStart (c : Char) : Bool := c.isAlpha || c == '_'

def isBindingChar (c : Char) : Bool := c.isAlphanum || c == '_' || c == '.'

/-- The name at the start of a line, and the line behind it and behind blanks. -/
def readName? (line : List Char) : Option (List Char × List Char) :=
  if line.head?.any isNameStart then
    some (line.takeWhile isBindingChar,
      (line.dropWhile isBindingChar).dropWhile Text.isBlank)
  else none

def afterEquals? : List Char → Option (List Char)
  | '=' :: rest => some rest
  | _ => none

def readRight (line : List Char) : Option (List Piece) :=
  let text := line.dropWhile Text.isBlank
  if text = [] ∨ text.head? = some '#' then some [] else readValue (.bare false) text

/-- The name that a line binds and what stands behind the equals sign. The word `export` may
stand before the name. -/
def readLeft (line : List Char) : Option (List Char × List Char) := do
  let (name, rest) ← readName? line
  match afterEquals? rest with
  | some right => return (name, right)
  | none =>
    if name = "export".toList then
      let (name, rest) ← readName? rest
      return (name, ← afterEquals? rest)
    else none

/-- Reads a line: none if it cannot be read, and no binding if it has nothing to say. -/
def readLine (line : List Char) : Option (Option Binding) := do
  let text := (Text.dropEndWhile Text.isBlank line).dropWhile Text.isBlank
  if text = [] ∨ text.head? = some '#' then return none
  else
    let (name, right) ← readLeft text
    return some ⟨.ofList name, ← readRight right⟩

/-- The bindings of lines up to the first that cannot be read, and whether there is none. -/
def readLines : List (Option (List Char)) → List Binding × Bool
  | [] => ([], true)
  | line :: rest =>
    match line >>= readLine with
    | none => ([], false)
    | some binding =>
      let (bindings, isWhole) := readLines rest
      (binding.toList ++ bindings, isWhole)

/-- The bindings of a file. A mark of the byte order at its start is skipped. -/
def read (text : String) : List Binding × Bool :=
  let cs := if text.toList.head? = some '\uFEFF' then text.toList.tail else text.toList
  readLines (joinLines [] .plain (rawLines cs))

end HostRoster.Dotenv
