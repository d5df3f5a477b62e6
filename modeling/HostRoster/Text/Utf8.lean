/-!
# Text from bytes

Bytes are read as the encoding of a text. What is not the encoding of a character is
shown as a replacement character: one for each byte that can start no character,
and one for each sequence that breaks off.
-/
namespace HostRoster.Text

/-- How many bytes follow the first byte of a character, and the range of the next one. -/
def followers? (first : UInt8) : Option (Nat × UInt8 × UInt8) :=
  if first < 0x80 then some (0, 0, 0)
  else if first < 0xC2 then none
  else if first < 0xE0 then some (1, 0x80, 0xBF)
  else if first = 0xE0 then some (2, 0xA0, 0xBF)
  else if first = 0xED then some (2, 0x80, 0x9F)
  else if first < 0xF0 then some (2, 0x80, 0xBF)
  else if first = 0xF0 then some (3, 0x90, 0xBF)
  else if first < 0xF4 then some (3, 0x80, 0xBF)
  else if first = 0xF4 then some (3, 0x80, 0x8F)
  else none

/-- The bytes that go on a sequence, at most a number of them. -/
def continued : Nat → UInt8 → UInt8 → List UInt8 → List UInt8
  | n + 1, low, high, b :: rest =>
    if low ≤ b ∧ b ≤ high then b :: continued n 0x80 0xBF rest else []
  | _, _, _, _ => []

def replacement : String := "\uFFFD"

/-- The character of a complete sequence. -/
def characterOf (sequence : List UInt8) : String :=
  (String.fromUTF8? sequence.toByteArray).getD replacement

/-- The text of bytes; sequences already read leave the given number of bytes to skip. -/
def ofBytes : Nat → List UInt8 → String
  | _, [] => ""
  | skip + 1, _ :: rest => ofBytes skip rest
  | 0, first :: rest =>
    match followers? first with
    | none => replacement ++ ofBytes 0 rest
    | some (count, low, high) =>
      let more := continued count low high rest
      (if more.length = count then characterOf (first :: more) else replacement) ++
        ofBytes more.length rest

/-- The text that bytes stand for, with replacements for what stands for nothing. -/
def lossy (bytes : List UInt8) : String := ofBytes 0 bytes

end HostRoster.Text
