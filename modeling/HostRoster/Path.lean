/-!
# Paths

A path is a text whose segments are separated by strokes. Paths are taken apart by
their text alone: empty segments and single dots stand for nothing, except that a
dot at the very start is a segment. The directories above a path are those that
are left when segments are dropped from its end.
-/
namespace HostRoster.Path

/-- Drops what stands for nothing from the end of a path. The text is given backwards. -/
def trimBack : List Char → List Char
  | [] => []
  | c :: rest =>
    if rest ≠ [] ∧ (c = '/' ∨ c = '.' ∧ rest.head? = some '/') then trimBack rest else c :: rest

theorem length_trimBack_le (text : List Char) : (trimBack text).length ≤ text.length := by
  induction text with
  | nil => exact Nat.le_refl _
  | cons c rest ih =>
    rw [trimBack]
    split
    · exact Nat.le_succ_of_le ih
    · exact Nat.le_refl _

/-- The text of the directory that holds a path, both given backwards. -/
def parentBack? (text : List Char) : Option (List Char) :=
  let trimmed := trimBack text
  if trimmed = [] ∨ trimmed = ['/'] then none
  else some (trimBack (trimmed.dropWhile (· ≠ '/')))

theorem length_dropWhile_lt {text : List Char} (start : text.head? ≠ some '/')
    (nonempty : text ≠ []) : (text.dropWhile (· ≠ '/')).length < text.length := by
  cases text with
  | nil => exact absurd rfl nonempty
  | cons c rest =>
    have differs : c ≠ '/' := fun same => start (congrArg some same)
    have dropped : (c :: rest).dropWhile (· ≠ '/') = rest.dropWhile (· ≠ '/') := by
      simp [List.dropWhile, differs]
    rw [dropped]
    exact Nat.lt_succ_of_le (List.dropWhile_sublist _).length_le

/-- A trimmed text ends in a stroke only when it is nothing else. -/
theorem head?_trimBack (text : List Char) (more : trimBack text ≠ ['/']) :
    (trimBack text).head? ≠ some '/' := by
  induction text with
  | nil => simp [trimBack]
  | cons c rest ih =>
    rw [trimBack] at more ⊢
    split at more
    · rename_i condition
      rw [if_pos condition]
      exact ih more
    · rename_i condition
      rw [if_neg condition]
      intro same
      have stroke : c = '/' := Option.some.inj same
      have last : rest = [] := Decidable.byContradiction fun left =>
        condition ⟨left, Or.inl stroke⟩
      exact more (by rw [stroke, last])

/-- The directory that holds a path has a shorter text. -/
theorem length_parentBack?_lt {text parent : List Char} (h : parentBack? text = some parent) :
    parent.length < text.length := by
  rw [parentBack?] at h
  split at h
  · exact absurd h (by simp)
  · rename_i proper
    have shorter : ((trimBack text).dropWhile (· ≠ '/')).length < (trimBack text).length :=
      length_dropWhile_lt (head?_trimBack text fun root => proper (Or.inr root))
        fun empty => proper (Or.inl empty)
    have smaller := length_trimBack_le ((trimBack text).dropWhile (· ≠ '/'))
    have bound := length_trimBack_le text
    cases h
    omega

/-- A path and all directories above it, nearest first, backwards. -/
def ancestorsBack (text : List Char) : List (List Char) :=
  match _h : parentBack? text with
  | none => [text]
  | some parent => text :: ancestorsBack parent
termination_by text.length
decreasing_by exact length_parentBack?_lt ‹_›

def backwards (path : String) : List Char := path.toList.reverse

def ofBackwards (text : List Char) : String := .ofList text.reverse

/-- The directory that holds a path. The root and the empty path are held by none. -/
def parent? (path : String) : Option String := (parentBack? (backwards path)).map ofBackwards

/-- A path and all directories above it, nearest first. -/
def ancestors (path : String) : List String := (ancestorsBack (backwards path)).map ofBackwards

def isAbsolute (path : String) : Bool := path.toList.head? == some '/'

/-- A path as seen from a directory. An absolute path stands for itself. -/
def join (directory path : String) : String :=
  if isAbsolute path then path
  else match (backwards directory).head? with
    | none => path
    | some '/' => directory ++ path
    | some _ => directory ++ "/" ++ path

/-- The directory that holds a path, where the present directory is written as a dot. -/
def directory (path : String) : String :=
  match parent? path with
  | some parent => if parent = "" then "." else parent
  | none => "."

/-- Splits a file name before its last dot; a dot at the start splits nothing. -/
def stem (name : List Char) : List Char :=
  match name.reverse.dropWhile (· ≠ '.') with
  | [] => name
  | [_] => name
  | _ :: rest => rest.reverse

/-- A path with another ending of its file name. A path without a file name stays as it is. -/
def withEnding (path ending : String) : String :=
  let trimmed := trimBack (backwards path)
  let name := (trimmed.takeWhile (· ≠ '/')).reverse
  if name = [] ∨ name = ['.'] ∨ name = ['.', '.'] then path
  else ofBackwards (trimmed.dropWhile (· ≠ '/')) ++ .ofList (stem name) ++ "." ++ ending

/-- The segments of a path that name something. After a stroke at the end stands a dot, which
asks that what stands before it is a directory. -/
def segments (path : String) : List String :=
  ((path.toList.splitOn '/').map String.ofList).filter (· ≠ "") ++
    if (backwards path).head? = some '/' then ["."] else []

end HostRoster.Path
