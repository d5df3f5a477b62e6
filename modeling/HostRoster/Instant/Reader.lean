import HostRoster.Instant

/-!
# Reading instants

The tolerant grammar allows white space before a number and around the marks of a
date and a time, short numbers, a space or a small letter between date and time,
any offset up to a day, and more than nine fraction digits, which are cut off. An
offset is taken away, so the instant is the same whatever zone it was written in.
-/
namespace HostRoster.Instant

def skipBlanks (text : List Char) : List Char := text.dropWhile Text.isBlank

def numeral (digits : List Char) : Nat :=
  digits.foldl (fun n c => 10 * n + (c.toNat - '0'.toNat)) 0

/-- Reads from one up to `width` digits. -/
def readNumber (width : Nat) (text : List Char) : Option (Nat × List Char) :=
  let digits := (text.take width).takeWhile Char.isDigit
  if digits.isEmpty then none else some (numeral digits, text.drop digits.length)

/-- Reads a mark after white space. -/
def readMark (mark : Char) (text : List Char) : Option (List Char) :=
  match skipBlanks text with
  | c :: rest => if c = mark then some rest else none
  | [] => none

/-- Reads a year of up to four digits, or of any length after a sign. -/
def readYear (text : List Char) : Option (Int × List Char) :=
  match skipBlanks text with
  | '-' :: rest => (readNumber rest.length rest).map fun r => (-(r.1 : Int), r.2)
  | '+' :: rest => (readNumber rest.length rest).map fun r => ((r.1 : Int), r.2)
  | rest => (readNumber 4 rest).map fun r => ((r.1 : Int), r.2)

/-- Reads a number of up to two digits after white space. -/
def readPair (text : List Char) : Option (Nat × List Char) := readNumber 2 (skipBlanks text)

/-- Reads a fraction, if there is one, as nanoseconds. -/
def readFraction : List Char → Option (Nat × List Char)
  | '.' :: rest =>
    let digits := rest.takeWhile Char.isDigit
    if digits.isEmpty then none
    else
      let nine := (digits ++ List.replicate 9 '0').take 9
      some (numeral nine, rest.drop digits.length)
  | text => some (0, text)

def readTwoDigits : List Char → Option (Nat × List Char)
  | a :: b :: rest => if a.isDigit ∧ b.isDigit then some (numeral [a, b], rest) else none
  | _ => none

/-- Reads a signed offset of hours and minutes, in seconds. -/
def readSignedOffset (sign : Int) (text : List Char) : Option (Int × List Char) := do
  let (hours, rest) ← readTwoDigits text
  let (minutes, rest) ← readTwoDigits (rest.dropWhile fun c => c = ':' ∨ Text.isBlank c)
  if minutes < 60 ∧ hours < 24 then return (sign * (hours * 3600 + minutes * 60), rest)
  else failure

/-- Reads an offset: a zone letter, the name of universal time, or a sign and numbers. -/
def readOffset (text : List Char) : Option (Int × List Char) :=
  if (text.take 3).map Char.toUpper = ['U', 'T', 'C'] then some (0, text.drop 3)
  else
    match text with
    | 'Z' :: rest => some (0, rest)
    | 'z' :: rest => some (0, rest)
    | '+' :: rest => readSignedOffset 1 rest
    | '-' :: rest => readSignedOffset (-1) rest
    | '−' :: rest => readSignedOffset (-1) rest
    | _ => none

/-- The years an instant may lie in, where it is written and in universal time. -/
def isYear (year : Int) : Bool := -262143 ≤ year && year ≤ 262142

def parse (text : String) : Option Instant := do
  let (year, rest) ← readYear text.toList
  let rest ← readMark '-' rest
  let (month, rest) ← readPair rest
  let rest ← readMark '-' rest
  let (day, rest) ← readPair rest
  let rest ← match rest with
    | 'T' :: rest => some rest
    | 't' :: rest => some rest
    | ' ' :: rest => some rest
    | _ => none
  let (hour, rest) ← readPair rest
  let rest ← readMark ':' rest
  let (minute, rest) ← readPair rest
  let rest ← readMark ':' rest
  let (second, rest) ← readPair rest
  let (nanos, rest) ← readFraction rest
  let (offset, rest) ← readOffset (skipBlanks rest)
  guard (skipBlanks rest).isEmpty
  guard (isYear year && Calendar.isDate year month day)
  guard (hour < 24 && minute < 60 && second ≤ 60)
  let leap : Nat := if second = 60 then 1 else 0
  let days := Calendar.dayNumber year month day - epochDay
  let seconds := days * 86400 + hour * 3600 + minute * 60 + (second - leap) - offset
  guard (isYear (Calendar.yearOfDay (seconds / 86400 + epochDay)))
  return ⟨seconds, nanos + leap * 1000000000⟩

end HostRoster.Instant
