/-!
# White space

The characters with the Unicode property White_Space, and cutting them off the
ends of a text.
-/
namespace HostRoster.Text

/-- Whether a character is white space in any script. -/
def isBlank (c : Char) : Bool :=
  let n := c.toNat
  (0x09 ≤ n && n ≤ 0x0D) || n == 0x20 || n == 0x85 || n == 0xA0 || n == 0x1680 ||
    (0x2000 ≤ n && n ≤ 0x200A) || n == 0x2028 || n == 0x2029 || n == 0x202F || n == 0x205F ||
    n == 0x3000

def dropEndWhile (p : Char → Bool) (text : List Char) : List Char :=
  (text.reverse.dropWhile p).reverse

def trimWhile (p : Char → Bool) (text : String) : String :=
  .ofList (dropEndWhile p (text.toList.dropWhile p))

def trim (text : String) : String := trimWhile isBlank text

def isBlankText (text : String) : Bool := text.toList.all isBlank

/-- The characters of a text, cut at every line feed; the last line may be empty. -/
def splitLines : List Char → List (List Char)
  | [] => [[]]
  | c :: rest =>
    if c = '\n' then [] :: splitLines rest
    else
      match splitLines rest with
      | line :: lines => (c :: line) :: lines
      | [] => [[c]]

/-- A line without the carriage return at its end. -/
def dropReturn (line : List Char) : List Char :=
  if line.getLast? = some '\r' then line.dropLast else line

/-- The lines of a text. A line feed at the end of the text begins no line. -/
def lines (text : String) : List String :=
  let all := splitLines text.toList
  (if all.getLast? = some [] then all.dropLast else all).map fun line => .ofList (dropReturn line)

end HostRoster.Text
