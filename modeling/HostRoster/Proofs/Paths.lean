import HostRoster.FileSystem
import HostRoster.Path
import Mathlib.Data.List.TakeWhile

/-!
# Where paths lead

A path whose last segment is a name leads to that name in the place to which the rest of
the path leads. The path of a file beside it, with another name or another ending, leads
to the other name in the same place, however the path is written.
-/
namespace HostRoster.Path

/-- A path is a name behind the text of a directory. -/
structure Names (path : String) (dir name : List Char) : Prop where
  text : path.toList = dir ++ name
  ends : dir = [] ∨ ∃ rest, dir = rest ++ ['/']
  plain : '/' ∉ name
  proper : name ≠ [] ∧ name ≠ ['.'] ∧ name ≠ ['.', '.']

namespace Names
variable {path : String} {dir name : List Char}

theorem backwards_eq (h : Names path dir name) : backwards path = name.reverse ++ dir.reverse := by
  rw [backwards, h.text, List.reverse_append]

/-- Nothing is dropped from the end of a path that ends in a name. -/
theorem trimBack_eq (h : Names path dir name) :
    trimBack (name.reverse ++ dir.reverse) = name.reverse ++ dir.reverse := by
  cases shape : name.reverse with
  | nil => exact absurd (List.reverse_eq_nil_iff.1 shape) h.proper.1
  | cons c rest =>
    have inside : ∀ d ∈ c :: rest, d ≠ '/' := by
      intro d mem same
      rw [← shape, List.mem_reverse] at mem
      exact h.plain (same ▸ mem)
    rw [List.cons_append, trimBack, if_neg]
    rintro ⟨-, stroke | ⟨dot, stroke⟩⟩
    · exact inside c List.mem_cons_self stroke
    · cases rest with
      | nil =>
        have single : name = ['.'] := by
          rw [← List.reverse_reverse name, shape, dot]
          rfl
        exact h.proper.2.1 single
      | cons d rest => exact inside d (by simp) (Option.some.inj stroke)

theorem takeWhile_eq (h : Names path dir name) :
    (name.reverse ++ dir.reverse).takeWhile (· ≠ '/') = name.reverse := by
  have all : ∀ c ∈ name.reverse, decide (c ≠ '/') = true := by
    intro c mem
    have here := List.mem_reverse.1 mem
    have apart : c ≠ '/' := fun same => h.plain (same ▸ here)
    simp [apart]
  rw [List.takeWhile_append_of_pos all]
  obtain rfl | ⟨rest, rfl⟩ := h.ends <;> simp

theorem dropWhile_eq (h : Names path dir name) :
    (name.reverse ++ dir.reverse).dropWhile (· ≠ '/') = dir.reverse := by
  have whole := List.takeWhile_append_dropWhile (p := (· ≠ '/')) (l := name.reverse ++ dir.reverse)
  rw [h.takeWhile_eq] at whole
  exact List.append_cancel_left whole

/-- With another ending a path has another name in the same directory. -/
theorem withEnding_eq (h : Names path dir name) (ending : String) :
    (withEnding path ending).toList = dir ++ (stem name ++ '.' :: ending.toList) := by
  have proper : ¬(name = [] ∨ name = ['.'] ∨ name = ['.', '.']) := by simp [h.proper]
  rw [withEnding, h.backwards_eq, h.trimBack_eq]
  rw [h.takeWhile_eq, h.dropWhile_eq, List.reverse_reverse, if_neg proper]
  simp [ofBackwards]

/-- The directory of a path is what is left when its name is dropped. -/
theorem parent?_eq (h : Names path dir name) :
    parent? path = some (ofBackwards (trimBack dir.reverse)) := by
  have some_left : ¬(name.reverse ++ dir.reverse = [] ∨ name.reverse ++ dir.reverse = ['/']) := by
    rintro (empty | root)
    · exact h.proper.1 (by simpa using (List.append_eq_nil_iff.1 empty).1)
    · cases shape : name.reverse with
      | nil => exact h.proper.1 (List.reverse_eq_nil_iff.1 shape)
      | cons c rest =>
        rw [shape] at root
        obtain ⟨rfl, -⟩ := List.cons.inj root
        have mem : '/' ∈ name.reverse := by simp [shape]
        exact h.plain (List.mem_reverse.1 mem)
  rw [parent?, h.backwards_eq, parentBack?]
  rw [h.trimBack_eq, if_neg some_left, h.dropWhile_eq]
  rfl

theorem mem_of_mem_stem {c : Char} {name : List Char} (h : c ∈ stem name) : c ∈ name := by
  have sub : ∀ d ∈ name.reverse.dropWhile (· ≠ '.'), d ∈ name := fun d mem =>
    List.mem_reverse.1 ((List.dropWhile_sublist _).mem mem)
  unfold stem at h
  split at h
  · exact h
  · exact h
  · rename_i first rest _ shape
    exact sub c (shape ▸ List.mem_cons_of_mem _ (List.mem_reverse.1 h))

/-- A path with another ending is again a name behind the text of the same directory. -/
theorem withEnding (h : Names path dir name) {ending : String} (plain : '/' ∉ ending.toList)
    (long : 1 < ending.toList.length) :
    Names (withEnding path ending) dir (stem name ++ '.' :: ending.toList) where
  text := h.withEnding_eq ending
  ends := h.ends
  plain mem := by
    rcases List.mem_append.1 mem with mem | mem
    · exact h.plain (mem_of_mem_stem mem)
    · rcases List.mem_cons.1 mem with same | mem
      · exact absurd same (by decide)
      · exact plain mem
  proper := by
    refine ⟨by simp, fun short => ?_, fun short => ?_⟩ <;>
      · have length := congrArg List.length short
        simp at length
        omega

end Names

/-- The segments in a text that are not empty. -/
def words (text : List Char) : List String :=
  ((text.splitOn '/').map String.ofList).filter (· ≠ "")

theorem words_append (a b : List Char) : words (a ++ '/' :: b) = words a ++ words b := by
  simp [words, List.splitOn_append_cons_self]

@[simp] theorem words_nil : words [] = [] := rfl

theorem words_of_plain {name : List Char} (plain : '/' ∉ name) (some_ : name ≠ []) :
    words name = [.ofList name] := by
  have proper : String.ofList name ≠ "" := by
    intro empty
    exact some_ (String.ofList_inj.1 empty)
  simp [words, List.splitOn_eq_singleton plain, proper]

theorem words_of_ends {dir name : List Char} (ends : dir = [] ∨ ∃ rest, dir = rest ++ ['/']) :
    words (dir ++ name) = words dir ++ words name := by
  obtain rfl | ⟨rest, rfl⟩ := ends
  · rfl
  · rw [List.append_assoc, List.singleton_append, words_append, words_append, words_nil,
      List.append_nil]

theorem Names.segments_eq {path : String} {dir name : List Char} (h : Names path dir name) :
    segments path = words dir ++ [.ofList name] := by
  have closed : (backwards path).head? ≠ some '/' := by
    rw [h.backwards_eq]
    cases shape : name.reverse with
    | nil => exact absurd (List.reverse_eq_nil_iff.1 shape) h.proper.1
    | cons c rest =>
      intro stroke
      have mem : '/' ∈ name.reverse := by
        rw [shape, ← Option.some.inj stroke]
        exact List.mem_cons_self
      exact h.plain (List.mem_reverse.1 mem)
  rw [segments, if_neg closed, List.append_nil, h.text]
  exact (words_of_ends h.ends).trans (congrArg _ (words_of_plain h.plain h.proper.1))

theorem getLast?_trimBack (text : List Char) : (trimBack text).getLast? = text.getLast? := by
  induction text with
  | nil => rfl
  | cons c rest ih =>
    rw [trimBack]
    split
    · rename_i condition
      rw [ih, List.getLast?_cons, List.getLast?_eq_some_getLast condition.1]
      rfl
    · rfl

theorem trimBack_ne_nil {text : List Char} (some_ : text ≠ []) : trimBack text ≠ [] := by
  intro empty
  have same := getLast?_trimBack text
  rw [empty, List.getLast?_eq_some_getLast some_] at same
  cases same

/-- What is dropped from the end of a path are strokes behind something and dots behind strokes. -/
theorem trimBack_rel (R : List Char → List Char → Prop) (refl : ∀ text, R text text)
    (stroke : ∀ left text, text ≠ [] → R left text → R left (text ++ ['/']))
    (dot : ∀ left text, R left (text ++ ['/']) → R left (text ++ ['/'] ++ ['.']))
    (text : List Char) : R (trimBack text).reverse text.reverse := by
  induction text with
  | nil => exact refl _
  | cons c rest ih =>
    rw [trimBack]
    split
    · rename_i condition
      obtain ⟨some_, rfl | ⟨rfl, behind⟩⟩ := condition
      · rw [List.reverse_cons]
        exact stroke _ _ (by simpa using some_) ih
      · cases rest with
        | nil => cases behind
        | cons d rest =>
          obtain rfl := Option.some.inj behind
          rw [List.reverse_cons] at ih
          simp only [List.reverse_cons]
          exact dot _ _ ih
    · exact refl _

end HostRoster.Path

namespace HostRoster.FileTree
open HostRoster.Path

variable {t : FileTree} {path : String} {dir name : List Char}

/-- The place to which segments lead from another. -/
def walk (place : String) (text : List Char) : String := (words text).foldl follow place

theorem walk_stroke (place : String) (text : List Char) :
    walk place (text ++ ['/']) = walk place text := by
  rw [walk, words_append, words_nil, List.append_nil, walk]

theorem walk_dot (place : String) (text : List Char) :
    walk place (text ++ ['/'] ++ ['.']) = walk place (text ++ ['/']) := by
  have dot : words ['.'] = ["."] := by rfl
  have split : text ++ ['/'] ++ ['.'] = text ++ '/' :: ['.'] := by simp
  rw [walk_stroke, walk, split, words_append, dot, List.foldl_append]
  rfl

/-- What is dropped from the end of a path does not change where it leads. -/
theorem walk_trimBack (place : String) (text : List Char) :
    walk place (trimBack text).reverse = walk place text.reverse :=
  trimBack_rel (fun left text => walk place left = walk place text) (fun _ => rfl)
    (fun _ _ _ ih => ih.trans (walk_stroke ..).symm) (fun _ _ ih => ih.trans (walk_dot ..).symm) text

/-- The place to which the text of a directory leads. -/
def reach (t : FileTree) (dir : List Char) : String :=
  walk (if dir.head? = some '/' then "/" else t.present) dir

/-- The place to which a path leads, whatever stands there. -/
def place (t : FileTree) (path : String) : String :=
  (segments path).foldl follow (t.start path)

theorem bind_ok {ε α β : Type} {x : Except ε α} {f : α → Except ε β} {value : β}
    (h : (x >>= f) = .ok value) : ∃ found, x = .ok found ∧ f found = .ok value := by
  cases x with
  | error e => cases h
  | ok found => exact ⟨found, rfl, h⟩

/-- A segment can be followed from a directory only, and leads where its text says. -/
theorem step_ok_iff {place segment next : String} : t.step place segment = .ok next ↔
    t.entry? place = some .directory ∧ follow place segment = next := by
  unfold step
  split <;> simp_all

theorem foldlM_step_ok {segments : List String} {start place : String}
    (h : segments.foldlM t.step start = .ok place) : place = segments.foldl follow start := by
  induction segments generalizing start with
  | nil => exact (Except.ok.inj h).symm
  | cons segment rest ih =>
    rw [List.foldlM_cons] at h
    obtain ⟨next, first, onward⟩ := bind_ok h
    rw [List.foldl_cons, (step_ok_iff.1 first).2]
    exact ih onward

theorem locate_ok_iff {place : String} : t.locate path = .ok place ↔
    path ≠ "" ∧ (segments path).foldlM t.step (t.start path) = .ok place := by
  unfold locate
  split <;> simp_all

/-- A path that can be located leads to its place. -/
theorem place_of_locate {place : String} (h : t.locate path = .ok place) : place = t.place path :=
  foldlM_step_ok (locate_ok_iff.1 h).2

theorem follow_ofList (place : String) (dot : name ≠ ['.']) (dots : name ≠ ['.', '.']) :
    follow place (.ofList name) = child place (.ofList name) := by
  unfold follow
  split
  · exact absurd (String.ofList_inj.1 ‹String.ofList name = String.ofList ['.']›) dot
  · exact absurd (String.ofList_inj.1 ‹String.ofList name = String.ofList ['.', '.']›) dots
  · rfl

/-- A path is seen from where the text of its directory is seen from. -/
theorem start_eq (h : Names path dir name) :
    t.start path = if dir.head? = some '/' then "/" else t.present := by
  have same : isAbsolute path = (dir.head? == some '/') := by
    rw [isAbsolute, h.text]
    cases dir with
    | nil =>
      cases name with
      | nil => rfl
      | cons c rest =>
        have apart : c ≠ '/' := fun same => h.plain (same ▸ List.mem_cons_self)
        simp [apart]
    | cons c rest => rfl
  simp [FileTree.start, same]

/-- A path that ends in a name leads to that name in the place of its directory. -/
theorem place_eq (h : Names path dir name) :
    t.place path = child (t.reach dir) (.ofList name) := by
  rw [place, h.segments_eq, List.foldl_append, start_eq h]
  exact follow_ofList _ h.proper.2.1 h.proper.2.2

/-- Two names in one place are the same place only if they are the same name. -/
theorem child_inj {place first second : String} (h : child place first = child place second) :
    first = second := by
  unfold child at h
  split at h
  · exact (String.append_right_inj _).1 h
  · exact (String.append_right_inj _).1 h

theorem child_ne (place : String) {first second : List Char} (apart : first ≠ second) :
    child place (.ofList first) ≠ child place (.ofList second) :=
  fun same => apart (String.ofList_inj.1 (child_inj same))

/-- A name never leads to the root. -/
theorem child_ne_root (place : String) (some_ : name ≠ []) : child place (.ofList name) ≠ "/" := by
  intro root
  have long := List.length_pos_iff.2 some_
  have text := congrArg String.toList root
  unfold child at text
  split at text <;>
    · have length := congrArg List.length text
      simp only [String.toList_append, String.toList_ofList, List.length_append] at length
      have stroke : "/".toList.length = 1 := rfl
      omega

/-- The text of a directory and what is left of it when its end is dropped lead to one place. -/
theorem reach_trimBack (t : FileTree) (dir : List Char) :
    reach t (trimBack dir.reverse).reverse = reach t dir := by
  have head : (trimBack dir.reverse).reverse.head? = dir.head? := by
    rw [List.head?_reverse, getLast?_trimBack, List.getLast?_reverse]
  rw [reach, head, walk_trimBack, List.reverse_reverse, reach]

theorem join_eq {directory other : String} (relative : isAbsolute other = false) {c : Char}
    {rest : List Char} (shape : backwards directory = c :: rest) :
    (join directory other).toList =
      (if c = '/' then directory.toList else directory.toList ++ ['/']) ++ other.toList := by
  rw [join, if_neg (by simp [relative]), shape]
  by_cases stroke : c = '/'
  · subst stroke
    simp
  · simp [stroke]

theorem isAbsolute_of_plain {other : String} (plain : '/' ∉ other.toList) :
    isAbsolute other = false := by
  rw [isAbsolute]
  cases shape : other.toList with
  | nil => rfl
  | cons c rest =>
    have apart : c ≠ '/' := fun same => plain (by simp [shape, same])
    simp [apart]

/-- The text that stands before the names of the files in a directory. -/
structure Before (directory : String) (dir : List Char) : Prop where
  words : words dir = words directory.toList
  head : dir.head? = directory.toList.head?
  names : ∀ other : String, '/' ∉ other.toList →
    (other.toList ≠ [] ∧ other.toList ≠ ['.'] ∧ other.toList ≠ ['.', '.']) →
      Names (join directory other) dir other.toList

theorem exists_before (directory : String) : ∃ dir, Before directory dir := by
  cases shape : backwards directory with
  | nil =>
    have empty : directory = "" := by simpa [backwards] using shape
    subst empty
    refine ⟨[], rfl, rfl, fun other plain proper => ⟨?_, .inl rfl, plain, proper⟩⟩
    rw [join, if_neg (by simp [isAbsolute_of_plain plain])]
    rfl
  | cons c rest =>
    have text : directory.toList = (c :: rest).reverse := by
      rw [← shape, backwards, List.reverse_reverse]
    by_cases stroke : c = '/'
    · refine ⟨directory.toList, rfl, rfl, fun other plain proper => ⟨?_, ?_, plain, proper⟩⟩
      · rw [join_eq (isAbsolute_of_plain plain) shape, if_pos stroke]
      · exact .inr ⟨rest.reverse, by rw [text, List.reverse_cons, stroke]⟩
    · refine ⟨directory.toList ++ ['/'], ?_, ?_, fun other plain proper => ⟨?_, ?_, plain, proper⟩⟩
      · rw [words_append, words_nil, List.append_nil]
      · rw [List.head?_append, text]
        simp
      · rw [join_eq (isAbsolute_of_plain plain) shape, if_neg stroke]
      · exact .inr ⟨_, rfl⟩

theorem Before.reach {directory : String} (h : Before directory dir) (t : FileTree) :
    t.reach dir = t.reach directory.toList := by
  rw [FileTree.reach, FileTree.reach, h.head, walk, walk, h.words]

/-- A path in a directory is seen from where the directory is seen from. -/
theorem Before.start_eq {directory : String} (h : Before directory dir) (named : Names path dir name)
    (t : FileTree) : t.start path = t.start directory := by
  have absolute : isAbsolute directory = (directory.toList.head? == some '/') := rfl
  rw [FileTree.start_eq named, h.head]
  simp [FileTree.start, absolute]

/-- The path of a file beside another leads to its name in the same place. -/
theorem exists_beside (h : Names path dir name) {other : String} (plain : '/' ∉ other.toList)
    (proper : other.toList ≠ [] ∧ other.toList ≠ ['.'] ∧ other.toList ≠ ['.', '.']) :
    ∃ dir', Names (join (directory path) other) dir' other.toList ∧
      ∀ t, reach t dir' = reach t dir := by
  obtain ⟨dir', before⟩ := exists_before (directory path)
  refine ⟨dir', before.names other plain proper, fun t => ?_⟩
  rw [before.reach]
  by_cases here : dir = []
  · have dot : directory path = "." := by
      rw [directory, h.parent?_eq, here]
      rfl
    rw [dot, here]
    rfl
  · have some_ : trimBack dir.reverse ≠ [] := trimBack_ne_nil (by simpa using here)
    have proper : ofBackwards (trimBack dir.reverse) ≠ "" := by
      intro empty
      exact some_ (List.reverse_eq_nil_iff.1 (String.ofList_inj.1 empty))
    have dropped : directory path = ofBackwards (trimBack dir.reverse) := by
      rw [directory, h.parent?_eq]
      exact if_neg proper
    rw [dropped, ofBackwards, String.toList_ofList, reach_trimBack]

end HostRoster.FileTree
