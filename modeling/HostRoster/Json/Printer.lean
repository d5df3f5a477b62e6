import HostRoster.Json.Value

/-!
# JSON text

A value is written either on one line without spaces, or with every item on a
line of its own under two more spaces of indentation. Quotes, backslashes and
control characters are escaped; every other character stands for itself.
-/
namespace HostRoster.Json

/-- A digit of the lower-case hexadecimal alphabet. -/
def hexDigit (n : Nat) : Char := (Nat.digitChar (n % 16))

def escape (c : Char) : List Char :=
  match c with
  | '"' => ['\\', '"']
  | '\\' => ['\\', '\\']
  | '\n' => ['\\', 'n']
  | '\r' => ['\\', 'r']
  | '\t' => ['\\', 't']
  | '\x08' => ['\\', 'b']
  | '\x0c' => ['\\', 'f']
  | c =>
    if c.toNat < 0x20 then ['\\', 'u', '0', '0', hexDigit (c.toNat / 16), hexDigit c.toNat]
    else [c]

def quote (text : String) : List Char :=
  '"' :: (text.toList.flatMap escape ++ ['"'])

def decimal (n : Int) : List Char :=
  if n < 0 then '-' :: Nat.toDigits 10 n.natAbs else Nat.toDigits 10 n.natAbs

/-- Where the pieces of a value stand relative to each other. -/
structure Spacing where
  /-- What stands before an item at a given depth, and before the closing bracket. -/
  lineStart : Nat → List Char
  /-- What stands between a field's name and its value. -/
  afterName : List Char

def Spacing.compact : Spacing := ⟨fun _ => [], [':']⟩

/-- One item a line, two spaces of indentation for each level. -/
def Spacing.indented : Spacing :=
  ⟨fun depth => '\n' :: List.replicate (2 * depth) ' ', [':', ' ']⟩

mutual

/-- The text of a value whose own line is indented to `depth`. -/
def print (s : Spacing) (depth : Nat) : Json → List Char
  | .null => "null".toList
  | .bool true => "true".toList
  | .bool false => "false".toList
  | .int n => decimal n
  | .real text => text
  | .str text => quote text
  | .unpaired => quote ""
  | .arr [] => ['[', ']']
  | .arr (v :: rest) =>
    '[' :: (s.lineStart (depth + 1) ++ print s (depth + 1) v ++
      printItems s (depth + 1) rest ++ s.lineStart depth ++ [']'])
  | .obj [] => ['\x7b', '\x7d']
  | .obj ((name, v) :: rest) =>
    '\x7b' :: (s.lineStart (depth + 1) ++ quote name ++ s.afterName ++ print s (depth + 1) v ++
      printFields s (depth + 1) rest ++ s.lineStart depth ++ ['\x7d'])

/-- The items of an array after its first. -/
def printItems (s : Spacing) (depth : Nat) : List Json → List Char
  | [] => []
  | v :: rest => ',' :: (s.lineStart depth ++ print s depth v ++ printItems s depth rest)

/-- The fields of an object after its first. -/
def printFields (s : Spacing) (depth : Nat) : List (String × Json) → List Char
  | [] => []
  | (name, v) :: rest =>
    ',' :: (s.lineStart depth ++ quote name ++ s.afterName ++ print s depth v ++
      printFields s depth rest)

end

def compact (v : Json) : String := .ofList (print .compact 0 v)

def indented (v : Json) : String := .ofList (print .indented 0 v)

end HostRoster.Json
