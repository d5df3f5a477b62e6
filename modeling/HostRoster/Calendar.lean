/-!
# Calendar

Days of the Gregorian calendar, carried on before its introduction, numbered from
the first day of the year 0.
-/
namespace HostRoster

namespace Calendar

def isLeap (year : Int) : Bool := year % 4 == 0 && (year % 100 != 0 || year % 400 == 0)

/-- The number of the first day of a year. -/
def daysBeforeYear (year : Int) : Int :=
  365 * year + (year - 1) / 4 - (year - 1) / 100 + (year - 1) / 400 + 1

def monthLengths (year : Int) : List Nat :=
  [31, if isLeap year then 29 else 28, 31, 30, 31, 30, 31, 31, 30, 31, 30, 31]

/-- The number of a day given by year, month and day of the month, counted from 1. -/
def dayNumber (year : Int) (month day : Nat) : Int :=
  daysBeforeYear year + ((monthLengths year).take (month - 1)).foldl Nat.add 0 + (day - 1)

/-- Whether a month and a day of the month exist in a year. -/
def isDate (year : Int) (month day : Nat) : Bool :=
  1 ≤ month && 1 ≤ day && (monthLengths year)[month - 1]?.any (day ≤ ·)

/-- The year of a day. An estimate by the mean length of a year is off by at most one. -/
def yearOfDay (day : Int) : Int :=
  let guess := day * 400 / 146097
  if day < daysBeforeYear guess then guess - 1
  else if daysBeforeYear (guess + 1) ≤ day then guess + 1
  else guess

/-- The month and the day of the month of a day counted from 0 within its year. -/
def monthOfDay (lengths : List Nat) (month day : Nat) : Nat × Nat :=
  match lengths with
  | [] => (month, day + 1)
  | length :: rest =>
    if day < length then (month, day + 1) else monthOfDay rest (month + 1) (day - length)

def dateOfDay (day : Int) : Int × Nat × Nat :=
  let year := yearOfDay day
  (year, monthOfDay (monthLengths year) 1 (day - daysBeforeYear year).toNat)

end Calendar

end HostRoster
