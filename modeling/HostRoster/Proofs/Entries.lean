import HostRoster.Command.Init
import Mathlib.Data.List.DropRight
import Mathlib.Data.List.Nodup
import Mathlib.Data.List.TakeWhile

/-!
# Names on lines of their own

The text of the names that version control leaves out is read line by line, and what is missing is
written behind its end. However the text ends, what is written starts with a line feed, so that all
lines there were are still lines, and each of the names then stands on one.
-/
namespace HostRoster

namespace Text

/-- A line stands between line feeds or the ends of a text. -/
structure IsLine (text line : List Char) : Prop where
  plain : '\n' ∉ line
  within : ∃ before after, text = before ++ (line ++ after) ∧
    (before = [] ∨ ∃ rest, before = rest ++ ['\n']) ∧ (after = [] ∨ ∃ rest, after = '\n' :: rest)

theorem splitLines_eq (text : List Char) : splitLines text = text.splitOn '\n' := by
  induction text with
  | nil => rfl
  | cons c rest ih =>
    rw [splitLines, List.splitOn_cons_eq_if_modifyHead, ih]
    by_cases feed : c = '\n'
    · simp [feed]
    · have some_ := List.splitOn_ne_nil '\n' rest
      obtain ⟨line, lines, shape⟩ := List.exists_cons_of_ne_nil some_
      simp [feed, shape]

theorem splitLines_append (a b : List Char) :
    splitLines (a ++ '\n' :: b) = splitLines a ++ splitLines b := by
  simp only [splitLines_eq, List.splitOn_append_cons_self]

theorem splitLines_of_plain {line : List Char} (plain : '\n' ∉ line) : splitLines line = [line] := by
  rw [splitLines_eq, List.splitOn_eq_singleton plain]

theorem isLine_of_mem {text line : List Char} (mem : line ∈ splitLines text) : IsLine text line := by
  -- by induction on the text, from which the first line is taken each time
  induction h : text.length using Nat.strong_induction_on generalizing text with
  | _ n ih =>
    subst h
    by_cases feed : '\n' ∈ text
    · obtain ⟨first, rest, rfl, plain⟩ := List.eq_append_cons_of_mem feed
      rw [splitLines_append, splitLines_of_plain plain, List.singleton_append, List.mem_cons] at mem
      obtain rfl | mem := mem
      · exact ⟨plain, [], '\n' :: rest, rfl, .inl rfl, .inr ⟨rest, rfl⟩⟩
      · have shorter : rest.length < (first ++ '\n' :: rest).length := by
          rw [List.length_append, List.length_cons]
          omega
        obtain ⟨plain, before, after, rfl, start, stop⟩ := ih _ shorter mem rfl
        refine ⟨plain, first ++ '\n' :: before, after, by simp, .inr ?_, stop⟩
        obtain rfl | ⟨start, rfl⟩ := start
        · exact ⟨first, rfl⟩
        · exact ⟨first ++ '\n' :: start, by simp⟩
    · rw [splitLines_of_plain feed, List.mem_singleton] at mem
      subst mem
      exact ⟨feed, [], [], by simp, .inl rfl, .inl rfl⟩

theorem mem_splitLines {text line : List Char} : line ∈ splitLines text ↔ IsLine text line := by
  refine ⟨isLine_of_mem, ?_⟩
  rintro ⟨plain, before, after, rfl, start, stop⟩
  have first : line ∈ splitLines (line ++ after) := by
    obtain rfl | ⟨rest, rfl⟩ := stop
    · rw [List.append_nil, splitLines_of_plain plain]
      exact List.mem_singleton_self line
    · rw [splitLines_append, splitLines_of_plain plain]
      exact List.mem_cons_self
  obtain rfl | ⟨rest, rfl⟩ := start
  · exact first
  · rw [List.append_assoc, List.singleton_append, splitLines_append]
    exact List.mem_append_right _ first

/-- A line is still one when more is written behind a line feed. -/
theorem IsLine.append {a line : List Char} (h : IsLine a line) (b : List Char) :
    IsLine (a ++ '\n' :: b) line := by
  rw [← mem_splitLines, splitLines_append]
  exact List.mem_append_left _ (mem_splitLines.2 h)

/-- Texts that are written line by line are these lines, and an empty one behind the last. -/
theorem splitLines_lines {texts : List String} (plain : ∀ text ∈ texts, '\n' ∉ text.toList) :
    splitLines (Report.lines texts).toList = texts.map String.toList ++ [[]] := by
  induction texts with
  | nil => rfl
  | cons text texts ih =>
    obtain ⟨first, plain⟩ := List.forall_mem_cons.1 plain
    have split : (Report.lines (text :: texts)).toList =
        text.toList ++ '\n' :: (Report.lines texts).toList := by
      simp [Report.lines, String.toList_join]
    rw [split, splitLines_append, splitLines_of_plain first, ih plain]
    rfl

/-- A name without blanks, which is not empty. -/
structure Solid (name : List Char) : Prop where
  some : name ≠ []
  solid : ∀ c ∈ name, isBlank c = false

theorem Solid.reverse {name : List Char} (h : Solid name) : Solid name.reverse :=
  ⟨by simpa using h.some, fun c mem => h.solid c (List.mem_reverse.1 mem)⟩

theorem Solid.dropWhile_eq {name blanks : List Char} (h : Solid name)
    (blank : ∀ c ∈ blanks, isBlank c = true) (rest : List Char) :
    (blanks ++ (name ++ rest)).dropWhile isBlank = name ++ rest := by
  rw [List.dropWhile_append_of_pos blank]
  obtain ⟨c, name, rfl⟩ := List.exists_cons_of_ne_nil h.some
  rw [List.cons_append, List.dropWhile_cons_of_neg]
  simp [h.solid c List.mem_cons_self]

/-- What is left of a line without the blanks at its ends. -/
theorem Solid.trim_eq_iff {name : List Char} (h : Solid name) (line : List Char) :
    trim (.ofList line) = .ofList name ↔ ∃ left right, line = left ++ (name ++ right) ∧
      (∀ c ∈ left, isBlank c = true) ∧ ∀ c ∈ right, isBlank c = true := by
  have cut : trim (.ofList line) = .ofList ((line.dropWhile isBlank).rdropWhile isBlank) := by
    rw [trim, trimWhile, String.toList_ofList]
    rfl
  rw [cut, String.ofList_inj]
  constructor
  · intro left
    refine ⟨line.takeWhile isBlank, (line.dropWhile isBlank).rtakeWhile isBlank, ?_, ?_, ?_⟩
    · rw [← left, List.rdropWhile_append_rtakeWhile, List.takeWhile_append_dropWhile]
    · exact fun c mem => List.mem_takeWhile_imp mem
    · exact fun c mem => List.mem_rtakeWhile_imp mem
  · rintro ⟨left, right, rfl, before, behind⟩
    have last : ∀ c ∈ right.reverse, isBlank c = true :=
      fun c mem => behind c (List.mem_reverse.1 mem)
    have backwards := h.reverse.dropWhile_eq last []
    rw [List.append_nil] at backwards
    rw [h.dropWhile_eq before, List.rdropWhile, List.reverse_append, backwards, List.reverse_reverse]

end Text

namespace Init
open Text

/-- A name stands on a line of its own, with nothing but blanks around it. -/
def HasEntry (text name : String) : Prop :=
  ∃ line left right, IsLine text.toList line ∧ line = left ++ (name.toList ++ right) ∧
    (∀ c ∈ left, isBlank c = true) ∧ ∀ c ∈ right, isBlank c = true

theorem solid_of_mem {name : String} (mem : name ∈ ignored) : Solid name.toList := by
  have all : ∀ name ∈ ignored, name.toList ≠ [] ∧ name.toList.all (!isBlank ·) = true := by decide
  obtain ⟨some_, solid⟩ := all name mem
  exact ⟨some_, fun c mem => by simpa using List.all_eq_true.1 solid c mem⟩

/-- The number of lines on which a name stands, with nothing but blanks around it. -/
def entries (text name : String) : Nat :=
  (splitLines text.toList).countP fun line => trim (.ofList line) == name

theorem hasEntry_iff {text name : String} (mem : name ∈ ignored) :
    HasEntry text name ↔ 0 < entries text name := by
  have trimmed := (solid_of_mem mem).trim_eq_iff
  rw [String.ofList_toList] at trimmed
  simp only [entries, HasEntry, List.countP_pos_iff, mem_splitLines, beq_iff_eq, trimmed,
    exists_and_left]

theorem hasLine_iff {text name : String} : hasLine text name = true ↔ 0 < entries text name := by
  rw [hasLine, List.any_eq_true, entries, List.countP_pos_iff]

theorem ignored_eq : ignored = [".env", ".hostsync/"] := by decide +kernel

theorem nodup_ignored : ignored.Nodup := by decide +kernel

/-- A name is missing once if it stands on no line. -/
theorem count_missingFrom {text name : String} (mem : name ∈ ignored) :
    (missingFrom text).count name = 1 - entries text name := by
  cases listed : hasLine text name with
  | true =>
    have some_ := hasLine_iff.1 listed
    have absent : name ∉ missingFrom text := by simp [missingFrom, listed]
    rw [List.count_eq_zero_of_not_mem absent]
    omega
  | false =>
    have none : ¬0 < entries text name := by simp [← hasLine_iff, listed]
    rw [missingFrom, List.count_filter (by simp [listed]),
      List.count_eq_one_of_mem nodup_ignored mem]
    omega

theorem entries_append (a b name : String) :
    entries (a ++ "\n" ++ b) name = entries a name + entries b name := by
  have split : (a ++ "\n" ++ b).toList = a.toList ++ '\n' :: b.toList := by simp
  rw [entries, split, splitLines_append, List.countP_append, entries, entries]

theorem entries_empty {name : String} (mem : name ∈ ignored) : entries "" name = 0 := by
  revert name
  decide +kernel

theorem entries_lines {name : String} (mem : name ∈ ignored) {texts : List String}
    (plain : ∀ text ∈ texts, '\n' ∉ text.toList) :
    entries (Report.lines texts) name = texts.countP fun text => trim text == name := by
  have last : entries "" name = [[]].countP fun line => trim (.ofList line) == name := rfl
  rw [entries, splitLines_lines plain, List.countP_append, ← last, entries_empty mem, List.countP_map]
  simp [Function.comp_def]

/-- What is added starts on a line of its own. -/
theorem append_addition (text : String) (missing : List String) :
    text ++ addition missing = text ++ "\n" ++ Report.lines ("# hostsync" :: missing) := by
  simp [addition, Report.lines, String.join_cons, String.append_assoc]

theorem entries_addition {name : String} (mem : name ∈ ignored) {missing : List String}
    (names : ∀ other ∈ missing, other ∈ ignored) (text : String) :
    entries (text ++ addition missing) name = entries text name + missing.count name := by
  have known : ∀ other ∈ ignored, '\n' ∉ other.toList ∧ trim other = other := by decide +kernel
  have heading : ∀ other ∈ ignored, trim "# hostsync" ≠ other := by decide +kernel
  have plain : ∀ other ∈ "# hostsync" :: missing, '\n' ∉ other.toList :=
    List.forall_mem_cons.2 ⟨by decide, fun other mem => (known other (names other mem)).1⟩
  rw [append_addition, entries_append, entries_lines mem plain,
    List.countP_cons_of_neg (by simpa using heading name mem), List.count]
  refine congrArg (entries text name + ·) (List.countP_congr fun other mem => ?_)
  rw [(known other (names other mem)).2]

/-- One text goes on from another to leave out all names. -/
structure Extends (old new : String) : Prop where
  /-- It has more text behind the old one, but no name there that was left out before. -/
  kept : ∃ more, new = old ++ more ∧
    ∀ name ∈ [".env", ".hostsync/"], HasEntry old name → ¬HasEntry more name
  /-- No line of the old text is joined with what is written behind it. -/
  lines : ∀ line, IsLine old.toList line → IsLine new.toList line
  listed : ∀ name ∈ [".env", ".hostsync/"], HasEntry new name
  /-- A name that was missing stands there once, and one that was there as often as before. -/
  once : ∀ name ∈ [".env", ".hostsync/"], entries new name = max 1 (entries old name)

theorem extends_of_entries {old more : String}
    (lines : ∀ line, IsLine old.toList line → IsLine (old ++ more).toList line)
    (fresh : ∀ name ∈ ignored, 0 < entries old name → entries more name = 0)
    (once : ∀ name ∈ ignored, entries (old ++ more) name = max 1 (entries old name)) :
    Extends old (old ++ more) := by
  refine ⟨⟨more, rfl, ?_⟩, lines, ?_, ignored_eq ▸ once⟩ <;> rw [← ignored_eq]
  · intro name mem
    rw [hasEntry_iff mem, hasEntry_iff mem]
    intro listed
    rw [fresh name mem listed]
    omega
  · intro name mem
    rw [hasEntry_iff mem, once name mem]
    omega

theorem extends_addition (text : String) : Extends text (text ++ addition (missingFrom text)) := by
  have names : ∀ other ∈ missingFrom text, other ∈ ignored :=
    fun _ missing => (List.mem_filter.1 missing).1
  refine extends_of_entries (fun line old => ?_) (fun name mem listed => ?_) fun name mem => ?_
  · rw [append_addition, String.toList_append, String.toList_append, List.append_assoc]
    exact old.append _
  · rw [← String.empty_append (s := addition _), entries_addition mem names, entries_empty mem,
      count_missingFrom mem]
    omega
  · rw [entries_addition mem names, count_missingFrom mem]
    omega

theorem extends_self {text : String} (all : missingFrom text = []) : Extends text text := by
  have same : Extends text (text ++ "") := by
    refine extends_of_entries (fun line old => ?_) (fun name mem _ => entries_empty mem)
      fun name mem => ?_
    · rwa [String.append_empty]
    · have none : (missingFrom text).count name = 1 - entries text name := count_missingFrom mem
      rw [all, List.count_nil] at none
      rw [String.append_empty]
      omega
  rwa [String.append_empty] at same

theorem extends_lines : Extends "" (Report.lines ignored) := by
  rw [← String.empty_append (s := Report.lines ignored)]
  refine extends_of_entries (fun line first => ?_) (fun name mem listed => ?_) fun name mem => ?_
  · have empty : line = [] := List.mem_singleton.1 (mem_splitLines.2 first)
    rw [empty, ← mem_splitLines]
    decide +kernel
  · rw [entries_empty mem] at listed
    cases listed
  · revert name
    decide +kernel

theorem extends_ignoreText (existing : Option String) :
    Extends (existing.getD "") (ignoreText existing) := by
  cases existing with
  | none => exact extends_lines
  | some text =>
    rw [ignoreText, Option.getD_some]
    cases all : missingFrom text with
    | nil => exact extends_self all
    | cons first rest =>
      change Extends text (text ++ addition (first :: rest))
      rw [← all]
      exact extends_addition text

/-- A last line without a line feed keeps to itself. -/
example : ignoreText (some "src\n .env\r\n.hostsync") =
    "src\n .env\r\n.hostsync\n# hostsync\n.hostsync/\n" := by decide +kernel

/-- Where all names are left out, nothing is written. -/
theorem ignoreText_again (existing : Option String) :
    ignoreText (some (ignoreText existing)) = ignoreText existing := by
  have none : missingFrom (ignoreText existing) = [] := by
    refine List.eq_nil_iff_forall_not_mem.2 fun name missing => ?_
    have mem := (List.mem_filter.1 missing).1
    have once := (extends_ignoreText existing).once name (ignored_eq ▸ mem)
    have some_ := List.count_pos_iff.2 missing
    rw [count_missingFrom mem] at some_
    omega
  rw [ignoreText, none]

end Init

end HostRoster
