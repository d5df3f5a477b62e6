import HostRoster.Calendar
import HostRoster.Text.Blank

/-!
# Instants

A point in time, counted from the start of 1970 in universal time, with
nanoseconds. The nanoseconds of a leap second go on past one thousand million.
Instants are written as RFC 3339 says, with no more fraction digits than needed
in groups of three, and read in a more tolerant form of the same grammar.
-/
namespace HostRoster

/-- Seconds since 1970 and nanoseconds within the second. -/
structure Instant where
  seconds : Int
  nanos : Nat
deriving DecidableEq, Repr, Inhabited

namespace Instant

def isBefore (a b : Instant) : Bool :=
  a.seconds < b.seconds || (a.seconds == b.seconds && a.nanos < b.nanos)

def addSeconds (t : Instant) (n : Int) : Instant := { t with seconds := t.seconds + n }

/-- Whole seconds from one instant to another, without the fraction. -/
def secondsUntil (a b : Instant) : Int :=
  ((b.seconds - a.seconds) * 1000000000 + (b.nanos - a.nanos)).tdiv 1000000000

/-- The day on which counting starts. -/
def epochDay : Int := Calendar.daysBeforeYear 1970

/-- Digits of a number, filled up with zeros on the left. -/
def padded (width n : Nat) : List Char :=
  let digits := Nat.toDigits 10 n
  List.replicate (width - digits.length) '0' ++ digits

/-- A year in four digits, with a sign when it does not fit in them. -/
def yearText (year : Int) : List Char :=
  if 0 ≤ year ∧ year ≤ 9999 then padded 4 year.toNat
  else (if year < 0 then '-' else '+') :: padded 4 year.natAbs

/-- The fraction of a second in as few groups of three digits as will do. -/
def fractionText (nanos : Nat) : List Char :=
  if nanos = 0 then []
  else if nanos % 1000000 = 0 then '.' :: padded 3 (nanos / 1000000)
  else if nanos % 1000 = 0 then '.' :: padded 6 (nanos / 1000)
  else '.' :: padded 9 nanos

def dateText (t : Instant) : List Char :=
  let (year, month, day) := Calendar.dateOfDay (t.seconds / 86400 + epochDay)
  yearText year ++ '-' :: padded 2 month ++ '-' :: padded 2 day

def minuteText (t : Instant) : List Char :=
  let second := (t.seconds % 86400).toNat
  padded 2 (second / 3600) ++ ':' :: padded 2 (second / 60 % 60)

def timeText (t : Instant) : List Char :=
  let second := (t.seconds % 60).toNat + t.nanos / 1000000000
  t.minuteText ++ ':' :: padded 2 second ++ fractionText (t.nanos % 1000000000)

/-- The stored form, such as `2020-01-02T03:04:05Z`. -/
def stored (t : Instant) : String :=
  .ofList (t.dateText ++ 'T' :: t.timeText ++ ['Z'])

/-- The form with a numeric offset, such as `2020-01-02T03:04:05+00:00`. -/
def withOffset (t : Instant) : String :=
  .ofList (t.dateText ++ 'T' :: t.timeText ++ "+00:00".toList)

/-- The form for people, such as `2020-01-02 03:04:05 UTC`. -/
def display (t : Instant) : String :=
  .ofList (t.dateText ++ ' ' :: t.timeText ++ " UTC".toList)

/-- The form to the minute, such as `2020-01-02 03:04`. -/
def shortText (t : Instant) : String := .ofList (t.dateText ++ ' ' :: t.minuteText)

end Instant

end HostRoster
