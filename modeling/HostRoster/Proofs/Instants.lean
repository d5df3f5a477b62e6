import HostRoster.Instant.Reader
import Mathlib.Algebra.Ring.Nat
import Mathlib.Data.Option.Basic
import Mathlib.Tactic.SplitIfs

/-!
# Instants in their stored form

A day of the calendar lies in exactly one year and one month, so that the date of a
day gives the day back. From this, the stored form of every instant that the calendar
has is read as that instant, to the nanosecond. Instants are ordered by seconds, then
nanoseconds.
-/
namespace HostRoster

namespace Calendar

/-- The estimate is corrected to the year that holds the day. -/
theorem yearOfDay_bounds (day : Int) :
    daysBeforeYear (yearOfDay day) ≤ day ∧ day < daysBeforeYear (yearOfDay day + 1) := by
  have near : daysBeforeYear (day * 400 / 146097 - 1) ≤ day ∧
      day < daysBeforeYear (day * 400 / 146097 + 2) := by
    simp only [daysBeforeYear]
    omega
  obtain ⟨low, high⟩ := near
  simp only [yearOfDay]
  split_ifs with before after
  · have same : day * 400 / 146097 - 1 + 1 = day * 400 / 146097 := by omega
    exact ⟨low, by rw [same]; exact before⟩
  · have same : day * 400 / 146097 + 1 + 1 = day * 400 / 146097 + 2 := by omega
    exact ⟨after, by rw [same]; exact high⟩
  · exact ⟨by omega, by omega⟩

theorem daysBeforeYear_succ (year : Int) :
    daysBeforeYear (year + 1) = daysBeforeYear year + (if isLeap year then 366 else 365) := by
  have leap : isLeap year = true ↔ (year % 4 = 0 ∧ (year % 100 ≠ 0 ∨ year % 400 = 0)) := by
    simp [isLeap]
  simp only [daysBeforeYear, leap]
  split_ifs <;> omega

theorem foldl_add_eq (lengths : List Nat) (start : Nat) :
    lengths.foldl Nat.add start = start + lengths.sum := by
  induction lengths generalizing start with
  | nil => rfl
  | cons length rest ih =>
    rw [List.foldl_cons, ih, List.sum_cons]
    exact Nat.add_assoc ..

/-- A day of a year lies in the month it is said to lie in, behind the months before. -/
theorem monthOfDay_spec (lengths : List Nat) (first day : Nat) (within : day < lengths.sum) :
    ∃ passed length dayOfMonth, monthOfDay lengths first day = (first + passed, dayOfMonth) ∧
      lengths[passed]? = some length ∧ 1 ≤ dayOfMonth ∧ dayOfMonth ≤ length ∧
      (lengths.take passed).sum + (dayOfMonth - 1) = day := by
  induction lengths generalizing first day with
  | nil => simp at within
  | cons length rest ih =>
    rw [List.sum_cons] at within
    by_cases here : day < length
    · refine ⟨0, length, day + 1, ?_, rfl, by omega, by omega, by simp⟩
      rw [monthOfDay, if_pos here]
      rfl
    · obtain ⟨passed, length', dayOfMonth, split, at_, low, high, total⟩ :=
        ih (first + 1) (day - length) (by omega)
      refine ⟨passed + 1, length', dayOfMonth, ?_, at_, low, high, ?_⟩
      · rw [monthOfDay, if_neg here, split]
        congr 1
        omega
      · rw [List.take_succ_cons, List.sum_cons]
        omega

theorem sum_monthLengths (year : Int) :
    (monthLengths year).sum = if isLeap year then 366 else 365 := by
  simp only [monthLengths]
  split_ifs <;> rfl

/-- The date of a day is a date, it is the date of that day, and it lies in the day's year. -/
theorem dateOfDay_spec (day : Int) : ∃ month dayOfMonth : Nat,
    dateOfDay day = (yearOfDay day, month, dayOfMonth) ∧
      isDate (yearOfDay day) month dayOfMonth = true ∧
      dayNumber (yearOfDay day) month dayOfMonth = day ∧ month < 100 ∧ dayOfMonth < 100 := by
  obtain ⟨low, high⟩ := yearOfDay_bounds day
  rw [daysBeforeYear_succ] at high
  have within : (day - daysBeforeYear (yearOfDay day)).toNat <
      (monthLengths (yearOfDay day)).sum := by
    rw [sum_monthLengths]
    split_ifs at high ⊢ <;> omega
  obtain ⟨passed, length, dayOfMonth, split, at_, first, last, total⟩ :=
    monthOfDay_spec _ 1 _ within
  obtain ⟨bound, rfl⟩ := List.getElem?_eq_some_iff.1 at_
  have months : passed < 12 := by simpa [monthLengths] using bound
  have short : (monthLengths (yearOfDay day))[passed] ≤ 31 := by
    have all : ∀ length ∈ monthLengths (yearOfDay day), length ≤ 31 := by
      simp only [monthLengths]
      split_ifs <;> decide
    exact all _ (List.getElem_mem bound)
  refine ⟨1 + passed, dayOfMonth, ?_, ?_, ?_, by omega, by omega⟩
  · rw [dateOfDay, split]
  · simp [isDate, bound, first, last]
  · rw [dayNumber, foldl_add_eq, Nat.add_sub_cancel_left, Nat.zero_add]
    omega

end Calendar

namespace Instant

theorem isBefore_iff {a b : Instant} : a.isBefore b = true ↔
    a.seconds < b.seconds ∨ a.seconds = b.seconds ∧ a.nanos < b.nanos := by
  simp [isBefore]

theorem not_isBefore_iff {a b : Instant} : a.isBefore b = false ↔
    b.seconds < a.seconds ∨ b.seconds = a.seconds ∧ b.nanos ≤ a.nanos := by
  rw [← Bool.not_eq_true, isBefore_iff]
  omega

theorem not_isBefore_self {a : Instant} : a.isBefore a = false := by
  simp [not_isBefore_iff]

theorem numeral_eq (digits : List Char) : numeral digits = Nat.ofDigitChars 10 digits 0 :=
  Nat.ofDigitChars_eq_foldl.symm

theorem isDigit_padded {width n : Nat} {c : Char} (h : c ∈ padded width n) : c.isDigit = true := by
  rcases List.mem_append.1 h with h | h
  · rw [(List.mem_replicate.1 h).2]
    rfl
  · exact Nat.isDigit_of_mem_toDigits (by decide) (by decide) h

theorem numeral_padded (width n : Nat) : numeral (padded width n) = n := by
  rw [numeral_eq, padded, Nat.ofDigitChars_append, Nat.ofDigitChars_replicate_zero, Nat.mul_zero,
    Nat.ofDigitChars_ten_toDigits]

theorem length_padded (width n : Nat) (positive : 0 < width) (small : n < 10 ^ width) :
    (padded width n).length = width := by
  have short := (Nat.length_toDigits_le_iff (by decide) positive).2 small
  simp only [padded, List.length_append, List.length_replicate]
  omega

theorem padded_ne_nil (width n : Nat) : padded width n ≠ [] :=
  List.append_ne_nil_of_right_ne_nil _ Nat.toDigits_ne_nil

/-- A numeral ends where its width is used up or no digit follows. -/
theorem readNumber_append (width : Nat) {digits : List Char} (rest : List Char) (some_ : digits ≠ [])
    (all : ∀ c ∈ digits, c.isDigit = true) (fits : digits.length ≤ width)
    (ends : digits.length = width ∨ ∀ c ∈ rest.head?, c.isDigit = false) :
    readNumber width (digits ++ rest) = some (numeral digits, rest) := by
  have taken : ((digits ++ rest).take width).takeWhile Char.isDigit = digits := by
    rw [List.take_append, List.take_of_length_le fits, List.takeWhile_append_of_pos all]
    rcases ends with full | stop
    · simp [full]
    · cases rest with
      | nil => simp
      | cons c rest =>
        have no : c.isDigit = false := stop c rfl
        cases width - digits.length <;> simp [no]
  simp only [readNumber, taken, List.isEmpty_iff, some_, if_false, List.drop_left]

theorem isBlank_of_isDigit {c : Char} (h : c.isDigit = true) : Text.isBlank c = false := by
  have range : 48 ≤ c.toNat ∧ c.toNat ≤ 57 := by
    simpa [Char.isDigit, UInt32.le_iff_toNat_le] using h
  simp only [Text.isBlank, Bool.or_eq_false_iff, Bool.and_eq_false_iff, decide_eq_false_iff_not,
    beq_eq_false_iff_ne]
  omega

theorem skipBlanks_cons {c : Char} (rest : List Char) (h : Text.isBlank c = false) :
    skipBlanks (c :: rest) = c :: rest := by
  simp [skipBlanks, h]

theorem skipBlanks_digits {digits : List Char} (rest : List Char) (some_ : digits ≠ [])
    (all : ∀ c ∈ digits, c.isDigit = true) : skipBlanks (digits ++ rest) = digits ++ rest := by
  cases digits with
  | nil => exact absurd rfl some_
  | cons c digits => exact skipBlanks_cons _ (isBlank_of_isDigit (all c (.head _)))

theorem readPair_padded {n : Nat} (rest : List Char) (small : n < 100) :
    readPair (padded 2 n ++ rest) = some (n, rest) := by
  have two := length_padded 2 n (by decide) small
  rw [readPair, skipBlanks_digits _ (padded_ne_nil _ _) fun _ => isDigit_padded,
    readNumber_append 2 rest (padded_ne_nil _ _) (fun _ => isDigit_padded) (Nat.le_of_eq two) (.inl two),
    numeral_padded]

theorem readMark_cons {mark : Char} (rest : List Char) (h : Text.isBlank mark = false) :
    readMark mark (mark :: rest) = some rest := by
  simp [readMark, skipBlanks_cons rest h]

/-- A year up to 9999 is written in four digits and any other with its sign, so that its end is
seen before the mark that follows. -/
theorem readYear_yearText (year : Int) (rest : List Char) :
    readYear (yearText year ++ '-' :: rest) = some (year, '-' :: rest) := by
  have stop : ∀ c ∈ ('-' :: rest).head?, c.isDigit = false := by simp
  by_cases plain : 0 ≤ year ∧ year ≤ 9999
  · have four := length_padded 4 year.toNat (by decide) (by omega)
    have read := readNumber_append 4 ('-' :: rest) (padded_ne_nil 4 year.toNat)
      (fun _ => isDigit_padded) (Nat.le_of_eq four) (.inl four)
    have value : ((year.toNat : Nat) : Int) = year := Int.toNat_of_nonneg plain.1
    rw [yearText, if_pos plain, readYear,
      skipBlanks_digits _ (padded_ne_nil _ _) fun _ => isDigit_padded]
    obtain ⟨c, digits, shape⟩ := List.exists_cons_of_ne_nil (padded_ne_nil 4 year.toNat)
    have digit : c.isDigit = true := isDigit_padded (shape ▸ List.mem_cons_self ..)
    have minus : c ≠ '-' := by rintro rfl; exact absurd digit (by decide)
    have plus : c ≠ '+' := by rintro rfl; exact absurd digit (by decide)
    rw [numeral_padded] at read
    rw [shape, List.cons_append] at read ⊢
    simp [minus, plus, read, value]
  · have read := readNumber_append (padded 4 year.natAbs ++ '-' :: rest).length ('-' :: rest)
      (padded_ne_nil 4 year.natAbs)
      (fun _ => isDigit_padded) (by simp) (.inr stop)
    rw [numeral_padded] at read
    rw [yearText, if_neg plain]
    by_cases negative : year < 0
    · have value : -((year.natAbs : Nat) : Int) = year := by omega
      rw [if_pos negative, readYear, List.cons_append, skipBlanks_cons _ (by decide)]
      simp only [read, Option.map_some, value]
    · have value : ((year.natAbs : Nat) : Int) = year := by omega
      rw [if_neg negative, readYear, List.cons_append, skipBlanks_cons _ (by decide)]
      simp only [read, Option.map_some, value]

/-- The digits of a fraction followed by no digit. -/
theorem readFraction_padded {width n : Nat} (rest : List Char) (positive : 0 < width)
    (narrow : width ≤ 9) (small : n < 10 ^ width) (stop : ∀ c ∈ rest.head?, c.isDigit = false) :
    readFraction ('.' :: padded width n ++ rest) = some (10 ^ (9 - width) * n, rest) := by
  have digits : (padded width n ++ rest).takeWhile Char.isDigit = padded width n := by
    rw [List.takeWhile_append_of_pos fun _ => isDigit_padded]
    cases rest with
    | nil => simp
    | cons c rest => simp [stop c rfl]
  have nine : (padded width n ++ List.replicate 9 '0').take 9 =
      padded width n ++ List.replicate (9 - width) '0' := by
    have length := length_padded width n positive small
    rw [List.take_append, length, List.take_of_length_le (by omega), List.take_replicate]
    congr 2
    omega
  have value : numeral (padded width n ++ List.replicate (9 - width) '0') =
      10 ^ (9 - width) * n := by
    rw [numeral_eq, Nat.ofDigitChars_append, ← numeral_eq, numeral_padded,
      Nat.ofDigitChars_replicate_zero]
  simp only [List.cons_append, readFraction, digits, List.isEmpty_iff, padded_ne_nil, if_false,
    nine, value, List.drop_left]

/-- No more digits are written than needed, and none are lost. -/
theorem readFraction_fractionText {nanos : Nat} (small : nanos < 1000000000) (rest : List Char)
    (stop : ∀ c ∈ rest.head?, c.isDigit = false ∧ c ≠ '.') :
    readFraction (fractionText nanos ++ rest) = some (nanos, rest) := by
  have noDigit : ∀ c ∈ rest.head?, c.isDigit = false := fun c hc => (stop c hc).1
  rw [fractionText]
  split_ifs with none three six
  · subst none
    cases rest with
    | nil => rfl
    | cons c rest =>
      have point : c ≠ '.' := (stop c rfl).2
      simp [readFraction, point]
  · rw [readFraction_padded rest (by decide) (by decide) (by omega) noDigit]
    congr 2
    omega
  · rw [readFraction_padded rest (by decide) (by decide) (by omega) noDigit]
    congr 2
    omega
  · rw [readFraction_padded rest (by decide) (by decide) (by omega) noDigit]
    congr 2
    omega

/-- An instant of the calendar. A leap second goes on after the last second of a minute. -/
def Dated (t : Instant) : Prop :=
  (t.nanos < 1000000000 ∨ t.seconds % 60 = 59 ∧ t.nanos < 2000000000) ∧
    isYear (Calendar.yearOfDay (t.seconds / 86400 + epochDay)) = true

instance (t : Instant) : Decidable t.Dated := inferInstanceAs (Decidable (_ ∧ _))

/-- An instant of the calendar, outside a leap second. -/
def Storable (t : Instant) : Prop :=
  t.nanos < 1000000000 ∧ isYear (Calendar.yearOfDay (t.seconds / 86400 + epochDay)) = true

instance (t : Instant) : Decidable t.Storable := inferInstanceAs (Decidable (_ ∧ _))

theorem Storable.dated {t : Instant} (h : t.Storable) : t.Dated := ⟨.inl h.1, h.2⟩

theorem guard_of_true {p : Prop} [Decidable p] (h : p) : (guard p : Option Unit) = some () :=
  if_pos h

/-- The pieces of the text of an instant. The second of a leap second is written as one more. -/
theorem toList_stored {t : Instant} {month day : Nat}
    (date : Calendar.dateOfDay (t.seconds / 86400 + epochDay) =
      (Calendar.yearOfDay (t.seconds / 86400 + epochDay), month, day)) :
    t.stored.toList = yearText (Calendar.yearOfDay (t.seconds / 86400 + epochDay)) ++ '-' ::
      (padded 2 month ++ '-' :: (padded 2 day ++ 'T' ::
        (padded 2 ((t.seconds % 86400).toNat / 3600) ++ ':' ::
          (padded 2 ((t.seconds % 86400).toNat / 60 % 60) ++ ':' ::
            (padded 2 ((t.seconds % 60).toNat + t.nanos / 1000000000) ++
              (fractionText (t.nanos % 1000000000) ++ ['Z'])))))) := by
  simp [stored, dateText, date, timeText, minuteText]

theorem parse_stored {t : Instant} (dated : t.Dated) : parse t.stored = some t := by
  obtain ⟨nanos, inYear⟩ := dated
  obtain ⟨month, day, date, isDate, number, monthSmall, daySmall⟩ :=
    Calendar.dateOfDay_spec (t.seconds / 86400 + epochDay)
  have zone : readFraction (fractionText (t.nanos % 1000000000) ++ ['Z']) =
      some (t.nanos % 1000000000, ['Z']) :=
    readFraction_fractionText (Nat.mod_lt _ (by decide)) _ (by simp)
  have hour : (t.seconds % 86400).toNat / 3600 < 24 := by omega
  have minute : (t.seconds % 86400).toNat / 60 % 60 < 60 := by omega
  have sixty : (t.seconds % 60).toNat + t.nanos / 1000000000 ≤ 60 := by omega
  have mark : ∀ rest, readMark '-' ('-' :: rest) = some rest :=
    fun rest => readMark_cons rest (by decide)
  have colon : ∀ rest, readMark ':' (':' :: rest) = some rest :=
    fun rest => readMark_cons rest (by decide)
  have offset : readOffset (skipBlanks ['Z']) = some (0, []) := by decide
  -- a leap second is the only one that is written as the sixtieth
  have leap : (if (t.seconds % 60).toNat + t.nanos / 1000000000 = 60 then 1 else 0) =
      t.nanos / 1000000000 := by
    split_ifs <;> omega
  have seconds : (t.seconds / 86400 + epochDay - epochDay) * 86400 +
      ((t.seconds % 86400).toNat / 3600 : Nat) * 3600 +
      ((t.seconds % 86400).toNat / 60 % 60 : Nat) * 60 +
      ((((t.seconds % 60).toNat + t.nanos / 1000000000 : Nat) : Int) -
        (t.nanos / 1000000000 : Nat)) - 0 = t.seconds := by
    omega
  have whole : t.nanos % 1000000000 + t.nanos / 1000000000 * 1000000000 = t.nanos := by omega
  rw [parse, toList_stored date, readYear_yearText]
  -- the readers take the pieces of the text one after the other
  dsimp only [bind, Option.bind]
  rw [mark]
  dsimp only
  rw [readPair_padded _ monthSmall]
  dsimp only
  rw [mark]
  dsimp only
  rw [readPair_padded _ daySmall]
  simp only []
  rw [readPair_padded _ (by omega)]
  dsimp only
  rw [colon]
  dsimp only
  rw [readPair_padded _ (by omega)]
  dsimp only
  rw [colon]
  dsimp only
  rw [readPair_padded _ (by omega)]
  dsimp only
  rw [zone]
  dsimp only
  rw [offset]
  dsimp only
  rw [number, leap, seconds]
  have ended : (skipBlanks []).isEmpty = true := rfl
  have dated : (isYear (Calendar.yearOfDay (t.seconds / 86400 + epochDay)) &&
      Calendar.isDate (Calendar.yearOfDay (t.seconds / 86400 + epochDay)) month day) = true := by
    simp [inYear, isDate]
  have timed : (decide ((t.seconds % 86400).toNat / 3600 < 24) &&
      decide ((t.seconds % 86400).toNat / 60 % 60 < 60) &&
      decide ((t.seconds % 60).toNat + t.nanos / 1000000000 ≤ 60)) = true := by
    simp [hour, minute, sixty]
  rw [guard_of_true ended, guard_of_true dated, guard_of_true timed, guard_of_true inYear, whole]
  rfl

end Instant

end HostRoster
