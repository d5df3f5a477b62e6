import HostRoster.Json.Printer
import HostRoster.Json.Reader
import Mathlib.Tactic.SplitIfs

/-!
# What is printed can be read

The reader gives back every value that has no numbers in it from its printed text,
whatever follows that text and whether it was printed on one line or on many. The
fuel of the reader suffices because each step of its recursion has used up a
character.
-/
namespace HostRoster.Json

/-- A value made of texts, truth values and nulls. -/
inductive Plain : Json → Prop
  | null : Plain .null
  | bool (b : Bool) : Plain (.bool b)
  | str (text : String) : Plain (.str text)
  | arr {items : List Json} (all : ∀ v ∈ items, Plain v) : Plain (.arr items)
  | obj {fields : List (String × Json)} (all : ∀ f ∈ fields, Plain f.2) : Plain (.obj fields)

theorem skipBlanks_append {lead text : List Char} (blank : ∀ c ∈ lead, isBlank c) :
    skipBlanks (lead ++ text) = skipBlanks text :=
  List.dropWhile_append_of_pos blank

theorem skipBlanks_cons {c : Char} {text : List Char} (solid : isBlank c = false) :
    skipBlanks (c :: text) = c :: text := by
  simp [skipBlanks, solid]

/-- Blanks before a value do not matter. -/
theorem readValue_append {lead text : List Char} (blank : ∀ c ∈ lead, isBlank c) (fuel : Nat) :
    readValue fuel (lead ++ text) = readValue fuel text := by
  cases fuel with
  | zero => rfl
  | succ fuel => simp only [readValue, skipBlanks_append blank]

theorem hexValue_hexDigit (n : Nat) : hexValue (hexDigit n) = some (n % 16) := by
  have digits : ∀ d < 16, hexValue (Nat.digitChar d) = some d := by decide
  exact digits _ (Nat.mod_lt _ (by omega))

/-- A control character is escaped by its code. -/
theorem hexUnit_escape {c : Char} (control : c.toNat < 0x20) :
    hexUnit '0' '0' (hexDigit (c.toNat / 16)) (hexDigit c.toNat) = some c.toNat := by
  have zero : hexValue '0' = some 0 := by decide
  simp only [hexUnit, zero, hexValue_hexDigit, Option.bind_eq_bind, Option.bind_some,
    Option.pure_def]
  congr 1
  omega

/-- The escape of a character reads as one piece, which spells the character. -/
theorem readPieces_escape (c : Char) (text : List Char) :
    ∃ piece, (piece = .char c ∨ piece = .unit c.toNat ∧ c.toNat < 0x20) ∧
      readPieces (escape c ++ text) =
        (readPieces text).map fun read => (piece :: read.1, read.2) := by
  by_cases named : c ∈ ['"', '\\', '\n', '\r', '\t', '\x08', '\x0c']
  · refine ⟨.char c, .inl rfl, ?_⟩
    simp only [List.mem_cons, List.not_mem_nil, or_false] at named
    rcases named with rfl | rfl | rfl | rfl | rfl | rfl | rfl <;>
      cases h : readPieces text <;> simp [escape, readPieces, letterEscape, h]
  · simp only [List.mem_cons, List.not_mem_nil, or_false, not_or] at named
    by_cases control : c.toNat < 0x20
    · refine ⟨.unit c.toNat, .inr ⟨rfl, control⟩, ?_⟩
      have escaped : escape c =
          ['\\', 'u', '0', '0', hexDigit (c.toNat / 16), hexDigit c.toNat] := by
        simp [escape, named, control]
      cases h : readPieces text <;>
        simp [escaped, readPieces, hexUnit_escape control, h]
    · refine ⟨.char c, .inl rfl, ?_⟩
      have escaped : escape c = [c] := by
        simp [escape, named, control]
      cases h : readPieces text <;> simp [escaped, readPieces, named, control, h]

theorem joinPieces_unit {c : Char} (control : c.toNat < 0x20) (rest : List Piece) :
    joinPieces (.unit c.toNat :: rest) = (joinPieces rest).map (c :: ·) := by
  have low : isHighSurrogate c.toNat = false := by simp [isHighSurrogate]; omega
  have high : isLowSurrogate c.toNat = false := by simp [isLowSurrogate]; omega
  have spelled : Char.ofNat c.toNat = c := Char.ofNat_toNat c
  cases rest with
  | nil => simp [joinPieces, low, high, spelled]
  | cons piece rest => cases piece <;> simp [joinPieces, low, high, spelled]

/-- The pieces of a quoted text spell the text. -/
theorem readPieces_quote (text rest : List Char) :
    ∃ pieces, readPieces (text.flatMap escape ++ '"' :: rest) = some (pieces, rest) ∧
      joinPieces pieces = some text := by
  induction text with
  | nil => exact ⟨[], by simp [readPieces], rfl⟩
  | cons c text ih =>
    obtain ⟨pieces, read, joined⟩ := ih
    obtain ⟨piece, spells, first⟩ := readPieces_escape c (text.flatMap escape ++ '"' :: rest)
    refine ⟨piece :: pieces, by simp [List.flatMap_cons, List.append_assoc, first, read], ?_⟩
    rcases spells with rfl | ⟨rfl, control⟩
    · simp [joinPieces, joined]
    · simp [joinPieces_unit control, joined]

theorem readText_quote (text : String) (rest : List Char) :
    readText (text.toList.flatMap escape ++ '"' :: rest) = some (.str text, rest) := by
  obtain ⟨pieces, read, joined⟩ := readPieces_quote text.toList rest
  simp [readText, read, joined]

/-- A spacing that puts nothing but blanks between the pieces of a value. -/
structure Spacing.Blank (s : Spacing) : Prop where
  lineStart : ∀ depth, ∀ c ∈ s.lineStart depth, isBlank c
  afterName : ∃ blanks, s.afterName = ':' :: blanks ∧ ∀ c ∈ blanks, isBlank c

theorem Spacing.blank_indented : Spacing.indented.Blank := by
  refine ⟨fun depth c hc => ?_, [' '], rfl, by simp [isBlank]⟩
  simp only [indented, List.mem_cons, List.mem_replicate] at hc
  rcases hc with rfl | ⟨-, rfl⟩ <;> rfl

variable {s : Spacing}

/-- Enough fuel for the length of its text, and the reader gives the value back. -/
def ReadsBack (s : Spacing) (v : Json) : Prop :=
  ∀ depth fuel rest, (print s depth v).length ≤ fuel →
    readValue fuel (print s depth v ++ rest) = some (v, rest)

/-- A plain value begins with a character that is neither blank nor a closing bracket. -/
theorem Plain.head {v : Json} (plain : Plain v) (s : Spacing) (depth : Nat) :
    ∃ c text, print s depth v = c :: text ∧ isBlank c = false ∧ c ≠ ']' := by
  cases plain with
  | null => exact ⟨'n', _, by rw [print]; rfl, by decide, by decide⟩
  | bool b =>
    cases b
    · exact ⟨'f', _, by rw [print]; rfl, by decide, by decide⟩
    · exact ⟨'t', _, by rw [print]; rfl, by decide, by decide⟩
  | str text => exact ⟨'"', _, by rw [print]; rfl, by decide, by decide⟩
  | @arr items _ =>
    cases items
    · exact ⟨'[', _, by rw [print], by decide, by decide⟩
    · exact ⟨'[', _, by rw [print], by decide, by decide⟩
  | @obj fields _ =>
    rcases fields with _ | ⟨⟨name, v⟩, fields⟩
    · exact ⟨'\x7b', _, by rw [print], by decide, by decide⟩
    · exact ⟨'\x7b', _, by rw [print], by decide, by decide⟩

/-- The items of an array, the first of which stands at the start of the text. -/
theorem readItems_print (blank : s.Blank) (depth : Nat) {close : List Char} (rest : List Char)
    (closing : ∀ c ∈ close, isBlank c) (items : List Json) (v : Json) (fuel : Nat)
    (all : ∀ w ∈ v :: items, ReadsBack s w)
    (enough : (print s depth v ++ printItems s depth items).length < fuel) :
    readItems fuel (print s depth v ++ printItems s depth items ++ close ++ ']' :: rest) =
      some (v :: items, rest) := by
  induction items generalizing v fuel with
  | nil =>
    obtain ⟨fuel, rfl⟩ : ∃ n, fuel = n + 1 := ⟨fuel - 1, by omega⟩
    have first := all v (.head _) depth fuel (close ++ ']' :: rest) (by
      simp only [printItems, List.append_nil] at enough
      omega)
    have stop : skipBlanks (close ++ ']' :: rest) = ']' :: rest := by
      rw [skipBlanks_append closing, skipBlanks_cons (by decide)]
    simp [readItems, printItems, first, stop]
  | cons w items ih =>
    obtain ⟨fuel, rfl⟩ : ∃ n, fuel = n + 1 := ⟨fuel - 1, by omega⟩
    simp only [printItems, List.length_append, List.length_cons] at enough
    let more := s.lineStart depth ++
      (print s depth w ++ printItems s depth items ++ close ++ ']' :: rest)
    have first := all v (.head _) depth fuel (',' :: more) (by omega)
    have others := ih w fuel (fun u hu => all u (.tail _ hu)) (by
      simp only [List.length_append]
      omega)
    have comma : skipBlanks (',' :: more) = ',' :: more := skipBlanks_cons (by decide)
    have lead : readItems fuel more = some (w :: items, rest) := by
      rw [← others]
      obtain ⟨fuel, rfl⟩ : ∃ n, fuel = n + 1 := ⟨fuel - 1, by omega⟩
      simp only [more, readItems, readValue_append (blank.lineStart depth)]
    have text : print s depth v ++ printItems s depth (w :: items) ++ close ++ ']' :: rest =
        print s depth v ++ ',' :: more := by
      simp [more, printItems]
    rw [text]
    simp [readItems, first, comma, lead]

/-- The fields of an object, the first of which stands at the start of the text. -/
theorem readFields_print (blank : s.Blank) (depth : Nat) {close : List Char} (rest : List Char)
    (closing : ∀ c ∈ close, isBlank c) (fields : List (String × Json)) (f : String × Json) (fuel : Nat)
    (all : ∀ g ∈ f :: fields, ReadsBack s g.2)
    (enough : (quote f.1 ++ s.afterName ++ print s depth f.2 ++
      printFields s depth fields).length < fuel) :
    readFields fuel (quote f.1 ++ s.afterName ++ print s depth f.2 ++
        printFields s depth fields ++ close ++ '\x7d' :: rest) = some (f :: fields, rest) := by
  obtain ⟨gap, after, gapBlank⟩ := blank.afterName
  have quoteStart : ∀ (name : String) (text : List Char), skipBlanks (quote name ++ text) =
      '"' :: (name.toList.flatMap escape ++ '"' :: text) := fun name text => by
    simp [quote, skipBlanks_cons (show isBlank '"' = false by decide)]
  induction fields generalizing f fuel with
  | nil =>
    obtain ⟨fuel, rfl⟩ : ∃ n, fuel = n + 1 := ⟨fuel - 1, by omega⟩
    have first := all f (.head _) depth fuel (close ++ '\x7d' :: rest) (by
      simp only [printFields, List.append_nil, List.length_append] at enough
      omega)
    have stop : skipBlanks (close ++ '\x7d' :: rest) = '\x7d' :: rest := by
      rw [skipBlanks_append closing, skipBlanks_cons (by decide)]
    simp [readFields, printFields, after, quoteStart, readText_quote,
      skipBlanks_cons (show isBlank ':' = false by decide), readValue_append gapBlank, first, stop]
  | cons g fields ih =>
    obtain ⟨fuel, rfl⟩ : ∃ n, fuel = n + 1 := ⟨fuel - 1, by omega⟩
    simp only [printFields, List.length_append, List.length_cons] at enough
    let more := s.lineStart depth ++ (quote g.1 ++ s.afterName ++ print s depth g.2 ++
      printFields s depth fields ++ close ++ '\x7d' :: rest)
    have first := all f (.head _) depth fuel (',' :: more) (by omega)
    have others := ih g fuel (fun u hu => all u (.tail _ hu)) (by
      simp only [List.length_append]
      omega)
    have comma : skipBlanks (',' :: more) = ',' :: more := skipBlanks_cons (by decide)
    have lead : readFields fuel more = some (g :: fields, rest) := by
      rw [← others]
      obtain ⟨fuel, rfl⟩ : ∃ n, fuel = n + 1 := ⟨fuel - 1, by omega⟩
      simp only [more, readFields, skipBlanks_append (blank.lineStart depth)]
    have text : quote f.1 ++ s.afterName ++ print s depth f.2 ++ printFields s depth (g :: fields) ++
        close ++ '\x7d' :: rest = quote f.1 ++ s.afterName ++ print s depth f.2 ++ ',' :: more := by
      simp [more, printFields]
    rw [text]
    simp [readFields, after, quoteStart, readText_quote,
      skipBlanks_cons (show isBlank ':' = false by decide), readValue_append gapBlank, first, comma,
      lead]

/-- Every text has a first character, so there is fuel for a first step. -/
theorem Plain.readsBack_of_succ {v : Json} (plain : Plain v)
    (read : ∀ depth fuel rest, (print s depth v).length ≤ fuel + 1 →
      readValue (fuel + 1) (print s depth v ++ rest) = some (v, rest)) : ReadsBack s v := by
  intro depth fuel rest enough
  obtain ⟨c, text, head, -⟩ := plain.head s depth
  obtain ⟨fuel, rfl⟩ : ∃ n, fuel = n + 1 := by
    rw [head, List.length_cons] at enough
    exact ⟨fuel - 1, by omega⟩
  exact read depth fuel rest enough

theorem readsBack_arr (blank : s.Blank) {items : List Json} (all : ∀ v ∈ items, Plain v)
    (back : ∀ v ∈ items, ReadsBack s v) : ReadsBack s (.arr items) := by
  refine (Plain.arr all).readsBack_of_succ fun depth fuel rest enough => ?_
  cases items with
  | nil => simp [print, readValue, skipBlanks, isBlank]
  | cons v items =>
    let inside := s.lineStart (depth + 1) ++ (print s (depth + 1) v ++
      printItems s (depth + 1) items ++ s.lineStart depth ++ ']' :: rest)
    obtain ⟨c, text, head, solid, unclosed⟩ := (all v (.head _)).head s (depth + 1)
    have start : skipBlanks inside = c :: (text ++ (printItems s (depth + 1) items ++
        s.lineStart depth ++ ']' :: rest)) := by
      simp only [inside, head, List.cons_append, List.append_assoc]
      rw [skipBlanks_append (blank.lineStart _), skipBlanks_cons solid]
    have read : readItems fuel inside = some (v :: items, rest) := by
      simp only [print, List.length_cons, List.length_append, List.length_nil] at enough
      have items := readItems_print blank (depth + 1) rest (blank.lineStart depth) items v fuel
        back (by
          simp only [List.length_append]
          omega)
      rw [← items]
      obtain ⟨fuel, rfl⟩ : ∃ n, fuel = n + 1 := ⟨fuel - 1, by omega⟩
      simp only [inside, readItems, readValue_append (blank.lineStart _)]
    have printed : print s depth (.arr (v :: items)) ++ rest = '[' :: inside := by
      simp [print, inside]
    simp [printed, readValue, skipBlanks_cons (show isBlank '[' = false by decide), start, unclosed,
      read]

theorem readsBack_obj (blank : s.Blank) {fields : List (String × Json)}
    (all : ∀ f ∈ fields, Plain f.2) (back : ∀ f ∈ fields, ReadsBack s f.2) :
    ReadsBack s (.obj fields) := by
  refine (Plain.obj all).readsBack_of_succ fun depth fuel rest enough => ?_
  rcases fields with _ | ⟨⟨name, v⟩, fields⟩
  · simp [print, readValue, skipBlanks, isBlank]
  · let inside := s.lineStart (depth + 1) ++ (quote name ++ s.afterName ++
      print s (depth + 1) v ++ printFields s (depth + 1) fields ++ s.lineStart depth ++
        '\x7d' :: rest)
    obtain ⟨text, start⟩ : ∃ text, skipBlanks inside = '"' :: text := by
      refine ⟨name.toList.flatMap escape ++ ('"' :: (s.afterName ++ print s (depth + 1) v ++
        printFields s (depth + 1) fields ++ s.lineStart depth ++ '\x7d' :: rest)), ?_⟩
      simp only [inside]
      rw [skipBlanks_append (blank.lineStart _)]
      simp [quote, skipBlanks_cons (show isBlank '"' = false by decide)]
    have read : readFields fuel inside = some ((name, v) :: fields, rest) := by
      simp only [print, List.length_cons, List.length_append, List.length_nil] at enough
      have fields := readFields_print blank (depth + 1) rest (blank.lineStart depth)
        fields (name, v) fuel back (by
          simp only [List.length_append]
          omega)
      rw [← fields]
      obtain ⟨fuel, rfl⟩ : ∃ n, fuel = n + 1 := ⟨fuel - 1, by omega⟩
      simp only [inside, readFields, skipBlanks_append (blank.lineStart _)]
    have printed : print s depth (.obj ((name, v) :: fields)) ++ rest = '\x7b' :: inside := by
      simp [print, inside]
    simp [printed, readValue, skipBlanks_cons (show isBlank '\x7b' = false by decide), start, read]

/-- By induction on the value: its parts are read back with the fuel that its brackets left. -/
theorem Plain.readsBack (blank : s.Blank) {v : Json} (plain : Plain v) : ReadsBack s v := by
  induction plain with
  | null =>
    refine Plain.null.readsBack_of_succ fun depth fuel rest _ => ?_
    simp [print, readValue, skipBlanks, isBlank, readWord]
  | bool b =>
    refine (Plain.bool b).readsBack_of_succ fun depth fuel rest _ => ?_
    cases b <;> simp [print, readValue, skipBlanks, isBlank, readWord]
  | str text =>
    refine (Plain.str text).readsBack_of_succ fun depth fuel rest _ => ?_
    simp [print, quote, readValue, skipBlanks, isBlank, readText_quote]
  | arr all back => exact readsBack_arr blank all back
  | obj all back => exact readsBack_obj blank all back

theorem parse_print (blank : s.Blank) {v : Json} (plain : Plain v) :
    parse (.ofList (print s 0 v)) = some v := by
  have read := plain.readsBack blank 0 ((print s 0 v).length + 1) [] (by omega)
  rw [List.append_nil] at read
  have whole : parse (.ofList (print s 0 v)) =
      (some (v, [])).bind fun found =>
        if (skipBlanks found.2).isEmpty then some found.1 else none := by
    rw [parse, String.toList_ofList, read]
    rfl
  rw [whole]
  rfl

theorem parse_indented {v : Json} (plain : Plain v) : parse v.indented = some v :=
  parse_print Spacing.blank_indented plain

end HostRoster.Json
