import HostRoster.Config.Source
import HostRoster.Proofs.FileStores

/-!
# Looking for a configuration

A configuration is looked for in a directory and in those above it. The search goes by the text of
the path that it starts from, which gets shorter by a segment each time. From an absolute path it
comes to the root like this. From a relative path it comes to the present directory, where no text
is left, and so it never sees what is above that directory.
-/
namespace HostRoster

namespace Path

theorem ancestorsBack_eq (text : List Char) :
    ancestorsBack text = text :: (parentBack? text).elim [] ancestorsBack := by
  rw [ancestorsBack]
  split <;> simp [*]

theorem ancestors_eq (path : String) :
    ancestors path = path :: (parent? path).elim [] ancestors := by
  rw [ancestors, ancestorsBack_eq, parent?, List.map_cons]
  cases parentBack? (backwards path) with
  | none => simp [ofBackwards, backwards]
  | some parent => simp [ofBackwards, backwards, ancestors]

/-- A dot behind a stroke does not stay at the end. -/
theorem trimBack_ne_dot (text rest : List Char) : trimBack text ≠ '.' :: '/' :: rest := by
  induction text with
  | nil => simp [trimBack]
  | cons c text ih =>
    rw [trimBack]
    split
    · exact ih
    · rename_i kept
      intro same
      obtain ⟨rfl, rfl⟩ := List.cons.inj same
      exact kept ⟨by simp, .inr ⟨rfl, rfl⟩⟩

/-- A path that has a directory above it ends in a segment, which may be a dot only at the start. -/
structure Splits (text dir name : List Char) : Prop where
  trimmed : (trimBack text).reverse = dir ++ name
  ends : dir = [] ∨ ∃ rest, dir = rest ++ ['/']
  plain : '/' ∉ name
  some : name ≠ []
  dot : name = ['.'] → dir = []

theorem dropWhile_stroke (text : List Char) :
    text.dropWhile (· ≠ '/') = [] ∨ ∃ rest, text.dropWhile (· ≠ '/') = '/' :: rest := by
  have stroke := List.head?_dropWhile_not (· ≠ '/') text
  cases shape : text.dropWhile (· ≠ '/') with
  | nil => exact .inl rfl
  | cons c rest =>
    rw [shape] at stroke
    obtain rfl : c = '/' := by simpa using stroke
    exact .inr ⟨rest, rfl⟩

theorem exists_splits {text parent : List Char} (h : parentBack? text = some parent) :
    ∃ dir name, Splits text dir name ∧ parent = trimBack dir.reverse := by
  rw [parentBack?] at h
  split at h
  · cases h
  · rename_i proper
    generalize trimmed : trimBack text = back at h proper
    have joined : back.takeWhile (· ≠ '/') ++ back.dropWhile (· ≠ '/') = back :=
      List.takeWhile_append_dropWhile
    have start : back.head? ≠ some '/' := by
      rw [← trimmed]
      exact head?_trimBack text fun root => proper (.inr (trimmed.symm.trans root))
    refine ⟨(back.dropWhile (· ≠ '/')).reverse, (back.takeWhile (· ≠ '/')).reverse,
      ⟨?_, ?_, ?_, ?_, ?_⟩, ?_⟩
    · rw [← List.reverse_append, joined, trimmed]
    · obtain none | ⟨rest, shape⟩ := dropWhile_stroke back
      · exact .inl (List.reverse_eq_nil_iff.2 none)
      · exact .inr ⟨rest.reverse, by rw [shape, List.reverse_cons]⟩
    · intro mem
      have other := List.mem_takeWhile_imp (List.mem_reverse.1 mem)
      simp at other
    · cases shape : back with
      | nil => exact absurd (.inl shape) proper
      | cons c rest =>
        rw [shape] at start
        have differs : c ≠ '/' := fun same => start (congrArg some same)
        simp [differs]
    · intro dot
      have single : back.takeWhile (· ≠ '/') = ['.'] := List.reverse_eq_iff.1 dot
      obtain none | ⟨rest, shape⟩ := dropWhile_stroke back
      · exact List.reverse_eq_nil_iff.2 none
      · rw [single, shape, ← trimmed] at joined
        exact absurd joined.symm (trimBack_ne_dot text rest)
    · rw [List.reverse_reverse]
      exact (Option.some.inj h).symm

theorem parent?_ofBackwards (text : List Char) :
    parent? (ofBackwards text) = (parentBack? text).map ofBackwards := by
  rw [parent?, backwards, ofBackwards, String.toList_ofList, List.reverse_reverse]

theorem isAbsolute_ofBackwards (text : List Char) :
    isAbsolute (ofBackwards text) = (text.getLast? == some '/') := by
  rw [isAbsolute, ofBackwards, String.toList_ofList, List.head?_reverse]

theorem head?_append_of_plain {name : List Char} (plain : '/' ∉ name) (dir : List Char) :
    (dir ++ name).head? = some '/' ↔ dir.head? = some '/' := by
  cases dir with
  | nil => exact iff_of_false (fun stroke => plain (List.mem_of_head? stroke)) (by simp)
  | cons c rest => rfl

/-- A path and the directory that holds it are both seen from the root or both not. -/
theorem Splits.isAbsolute_eq {text dir name : List Char} (h : Splits text dir name) :
    isAbsolute (ofBackwards (trimBack dir.reverse)) = isAbsolute (ofBackwards text) := by
  have last : text.getLast? = (dir ++ name).head? := by
    rw [← h.trimmed, List.head?_reverse, getLast?_trimBack]
  rw [isAbsolute_ofBackwards, isAbsolute_ofBackwards, getLast?_trimBack, List.getLast?_reverse, last,
    Bool.eq_iff_iff, beq_iff_eq, beq_iff_eq, head?_append_of_plain h.plain]

theorem mem_words_trimBack {segment : String} (text : List Char)
    (mem : segment ∈ words (trimBack text).reverse) : segment ∈ words text.reverse := by
  refine trimBack_rel (fun left text => segment ∈ words left → segment ∈ words text)
    (fun _ => id) (fun left text _ ih mem => ?_) (fun left text ih mem => ?_) text mem
  · rw [words_append, words_nil, List.append_nil]
    exact ih mem
  · have split : text ++ ['/'] ++ ['.'] = text ++ '/' :: ['.'] := by simp
    have kept := ih mem
    rw [words_append, words_nil, List.append_nil] at kept
    rw [split, words_append]
    exact List.mem_append_left _ kept

end Path

namespace FileTree
open HostRoster.Path

/-- Where a text is seen from. -/
def base (t : FileTree) (text : List Char) : String :=
  if text.head? = some '/' then "/" else t.present

/-- A text can be followed to a directory. -/
def Leads (t : FileTree) (text : List Char) (dir : String) : Prop :=
  (words text).foldlM t.step (t.base text) = .ok dir ∧ t.entry? dir = some .directory

/-- The directory that a path leads to, if it leads to one. The empty path leads to the present
directory. -/
def directory? (t : FileTree) (path : String) : Option String :=
  match (segments path).foldlM t.step (t.start path) with
  | .ok place => if t.entry? place = some .directory then some place else none
  | .error _ => none

section Leading

variable {t : FileTree} {text : List Char} {dir place path : String}

theorem step_dot (stands : t.entry? place = some .directory) : t.step place "." = .ok place :=
  step_ok_iff.2 ⟨stands, rfl⟩

theorem foldlM_step_dot {texts : List String} {start : String} :
    ((texts ++ ["."]).foldlM t.step start = .ok place ∧ t.entry? place = some .directory) ↔
      (texts.foldlM t.step start = .ok place ∧ t.entry? place = some .directory) := by
  rw [List.foldlM_append]
  constructor
  · rintro ⟨walked, stands⟩
    obtain ⟨before, walks, onward⟩ := bind_ok walked
    obtain ⟨next, stepped, same⟩ := bind_ok onward
    obtain ⟨-, rfl⟩ := step_ok_iff.1 stepped
    cases same
    exact ⟨walks, stands⟩
  · rintro ⟨walked, stands⟩
    refine ⟨?_, stands⟩
    rw [walked]
    change ["."].foldlM t.step place = _
    rw [List.foldlM_cons, step_dot stands]
    rfl

theorem start_eq_base (path : String) : t.start path = t.base path.toList := by
  simp [FileTree.start, base, isAbsolute]

theorem directory?_eq_some : t.directory? path = some dir ↔ t.Leads path.toList dir := by
  have leads : t.Leads path.toList dir ↔
      (segments path).foldlM t.step (t.start path) = .ok dir ∧ t.entry? dir = some .directory := by
    rw [Leads, start_eq_base, segments]
    split
    · exact foldlM_step_dot.symm
    · rw [List.append_nil]
      rfl
  rw [leads, directory?]
  cases (segments path).foldlM t.step (t.start path) with
  | error trouble => simp
  | ok place =>
    by_cases stands : t.entry? place = some .directory
    · simp [stands]
      rintro rfl
      exact stands
    · simp [stands]
      rintro rfl
      exact stands

theorem base_append (some_ : text ≠ []) (more : List Char) : t.base (text ++ more) = t.base text := by
  rw [base, base, List.head?_append_of_ne_nil _ some_]

theorem leads_stroke (some_ : text ≠ []) : t.Leads (text ++ ['/']) dir ↔ t.Leads text dir := by
  rw [Leads, Leads, base_append some_, words_append, words_nil, List.append_nil]

theorem leads_dot : t.Leads (text ++ ['/'] ++ ['.']) dir ↔ t.Leads (text ++ ['/']) dir := by
  have split : text ++ ['/'] ++ ['.'] = text ++ '/' :: ['.'] := by simp
  have dot : words ['.'] = ["."] := by rfl
  rw [Leads, Leads, base_append (by simp), split, words_append, words_append, dot, words_nil,
    List.append_nil]
  exact foldlM_step_dot

theorem leads_only_dot : t.Leads ['.'] dir ↔ t.Leads [] dir :=
  @foldlM_step_dot t dir [] t.present

/-- What is dropped from the end of a path does not change to which directory it leads. -/
theorem leads_trimBack (text : List Char) :
    t.Leads (trimBack text).reverse dir ↔ t.Leads text.reverse dir :=
  trimBack_rel (fun left text => t.Leads left dir ↔ t.Leads text dir) (fun _ => Iff.rfl)
    (fun _ _ some_ ih => ih.trans (leads_stroke some_).symm) (fun _ _ ih => ih.trans leads_dot.symm)
    text

/-- A text that ends in a name leads where its directory does, and from there to the name. -/
theorem leads_name {name : List Char} (ends : text = [] ∨ ∃ rest, text = rest ++ ['/'])
    (plain : '/' ∉ name) (proper : name ≠ [] ∧ name ≠ ['.'] ∧ name ≠ ['.', '.']) :
    t.Leads (text ++ name) dir ↔ ∃ above, t.Leads text above ∧ dir = child above (.ofList name) ∧
      t.entry? dir = some .directory := by
  have same : t.base (text ++ name) = t.base text := by
    simp only [base, head?_append_of_plain plain]
  rw [Leads, same, words_of_ends ends, words_of_plain plain proper.1, List.foldlM_append]
  constructor
  · rintro ⟨walked, stands⟩
    obtain ⟨above, walks, onward⟩ := bind_ok walked
    obtain ⟨next, stepped, same⟩ := bind_ok onward
    obtain ⟨holds, rfl⟩ := step_ok_iff.1 stepped
    cases same
    exact ⟨above, ⟨walks, holds⟩, follow_ofList above proper.2.1 proper.2.2, stands⟩
  · rintro ⟨above, ⟨walks, holds⟩, rfl, stands⟩
    refine ⟨?_, stands⟩
    rw [walks]
    change [String.ofList name].foldlM t.step above = _
    rw [List.foldlM_cons, step_ok_iff.2 ⟨holds, follow_ofList above proper.2.1 proper.2.2⟩]
    rfl

end Leading

/-- A full path without dots. -/
inductive Placed : String → Prop
  | root : Placed "/"
  | inside {place : String} {name : List Char} (above : Placed place) (plain : '/' ∉ name)
      (proper : name ≠ [] ∧ name ≠ ['.'] ∧ name ≠ ['.', '.']) :
      Placed (FileTree.child place (.ofList name))

section Placing

variable {t : FileTree} {place : String} {name : List Char}

/-- The text that stands before the names in a place. -/
def front (place : String) : List Char :=
  if place = "/" then ['/'] else place.toList ++ ['/']

theorem names_child (place : String) (plain : '/' ∉ name)
    (proper : name ≠ [] ∧ name ≠ ['.'] ∧ name ≠ ['.', '.']) :
    Names (child place (.ofList name)) (front place) name where
  text := by
    unfold child front
    split <;> simp
  ends := by
    unfold front
    split
    · exact .inr ⟨[], rfl⟩
    · exact .inr ⟨_, rfl⟩
  plain := plain
  proper := proper

theorem Placed.trimBack_front (h : Placed place) :
    ofBackwards (trimBack (front place).reverse) = place := by
  cases h with
  | root => rfl
  | @inside above name _ plain proper =>
    have names := names_child above plain proper
    have other : child above (.ofList name) ≠ "/" := child_ne_root above proper.1
    have some_ : (child above (.ofList name)).toList.reverse ≠ [] := by
      rw [names.text]
      simp [proper.1]
    rw [front, if_neg other, List.reverse_append, List.reverse_singleton, List.singleton_append,
      trimBack, if_pos ⟨some_, .inl rfl⟩, names.text, List.reverse_append, names.trimBack_eq,
      ← List.reverse_append, ← names.text, ofBackwards, List.reverse_reverse, String.ofList_toList]

theorem Placed.ancestors_child (h : Placed place) (plain : '/' ∉ name)
    (proper : name ≠ [] ∧ name ≠ ['.'] ∧ name ≠ ['.', '.']) :
    ancestors (child place (.ofList name)) = child place (.ofList name) :: ancestors place := by
  rw [ancestors_eq, (names_child place plain proper).parent?_eq, h.trimBack_front]
  rfl

theorem ancestors_root : ancestors "/" = ["/"] := by
  rw [ancestors_eq]
  rfl

end Placing

end FileTree

namespace Config
open FileTree

/-- The first of the usual names at which something is in a directory, as a place. -/
def fileIn? (t : FileTree) (dir : String) : Option String :=
  (fileNames.map (child dir)).find? fun place => (t.entry? place).isSome

/-- Such a place in the first of some directories where there is one. -/
def nearest? (t : FileTree) (dirs : List String) : Option String := dirs.findSome? (fileIn? t)

/-- What is found for a start is what is nearest in some directories. -/
inductive Finds (t : FileTree) (dirs : List String) (start : String) :
    Except ConfigError String → Prop
  | file {path place : String} (nearest : nearest? t dirs = some place)
      (leads : t.locate path = .ok place) : Finds t dirs start (.ok path)
  | none (none : nearest? t dirs = none) :
      Finds t dirs start (.error (.notFound (Path.join start "hostsync.yaml")))

/-- The directories that the search goes through: those to which its start leads, and what is left
of it when segments are dropped from its end. -/
def searched (t : FileTree) (start : String) : List String :=
  (Path.ancestors start).filterMap t.directory?

section Search

variable {t : FileTree} {dir place start : String} {w : World}

theorem play_firstPresent (paths : List String) :
    World.server.play (firstPresent paths) w = (paths.find? w.files.found, w) := by
  induction paths with
  | nil => rfl
  | cons path rest ih =>
    have asks : World.server.play (Machine.file (.contains path) : Program Machine Bool) w =
      (w.files.found path, w) := rfl
    refine (Server.play_then asks).trans ?_
    rw [List.find?_cons]
    cases w.files.found path with
    | true => rfl
    | false => exact ih

theorem proper_fileNames {name : String} (mem : name ∈ fileNames) :
    '/' ∉ name.toList ∧ name.toList ≠ [] ∧ name.toList ≠ ['.'] ∧ name.toList ≠ ['.', '.'] := by
  revert name
  decide

theorem locate_join_iff {name : String} (mem : name ∈ fileNames) (d : String) :
    t.locate (Path.join d name) = .ok place ↔
      ∃ dir, t.directory? d = some dir ∧ place = child dir name := by
  obtain ⟨plain, proper⟩ := proper_fileNames mem
  obtain ⟨text, before⟩ := exists_before d
  have named := before.names name plain proper
  rw [locate_name_iff named, place_eq named, String.ofList_toList, before.words,
    before.start_eq named, start_eq_base]
  constructor
  · rintro ⟨walked, stands, rfl⟩
    exact ⟨_, directory?_eq_some.2 ⟨walked, stands⟩, rfl⟩
  · rintro ⟨dir, leads, rfl⟩
    obtain ⟨walked, stands⟩ := directory?_eq_some.1 leads
    obtain rfl : dir = t.reach text := by
      rw [before.reach]
      exact foldlM_step_ok walked
    exact ⟨walked, stands, rfl⟩

theorem found_join {name : String} (mem : name ∈ fileNames) (d : String) :
    t.found (Path.join d name) =
      (t.directory? d).any fun dir => (t.entry? (child dir name)).isSome := by
  cases leads : t.directory? d with
  | none =>
    rw [Option.any_none, ← Bool.not_eq_true, found_iff]
    rintro ⟨place, located, -⟩
    obtain ⟨dir, leads', -⟩ := (locate_join_iff mem d).1 located
    rw [leads] at leads'
    cases leads'
  | some dir =>
    rw [found, (locate_join_iff mem d).2 ⟨dir, leads, rfl⟩]
    rfl

/-- What is found behind a path is what is in the directory that it leads to. By induction on the
names. -/
theorem find?_join (t : FileTree) (d : String) {names : List String}
    (usual : ∀ name ∈ names, name ∈ fileNames) :
    ((names.map (Path.join d)).find? t.found).map t.place = (t.directory? d).bind fun dir =>
      (names.map (child dir)).find? fun place => (t.entry? place).isSome := by
  induction names with
  | nil => simp
  | cons name rest ih =>
    have mem := usual name List.mem_cons_self
    have others := ih fun other mem => usual other (List.mem_cons_of_mem _ mem)
    rw [List.map_cons, List.find?_cons, found_join mem]
    cases leads : t.directory? d with
    | none =>
      rw [leads] at others
      exact others
    | some dir =>
      rw [leads] at others
      have located := (locate_join_iff mem d).2 ⟨dir, leads, rfl⟩
      simp only [Option.any_some, Option.bind_some, List.map_cons, List.find?_cons] at others ⊢
      cases (t.entry? (child dir name)).isSome with
      | true => exact congrArg some (place_of_locate located).symm
      | false => exact others

/-- The search is for what is nearest in the directories that it goes through. -/
theorem find?_candidates (t : FileTree) (start : String) :
    ((candidates start).find? t.found).map t.place = nearest? t (searched t start) := by
  have through : nearest? t (searched t start) =
      (Path.ancestors start).findSome? fun d => (t.directory? d).bind (fileIn? t) := by
    rw [nearest?, searched, ← List.head?_filterMap, List.filterMap_filterMap, List.head?_filterMap]
  rw [candidates, List.find?_flatMap, List.map_findSome?, through]
  refine congrArg (fun f => (Path.ancestors start).findSome? f) (funext fun d => ?_)
  exact find?_join t d fun _ mem => mem

/-- Looking for a configuration always ends. -/
theorem exists_finds (w : World) (start : String) :
    ∃ result, (w.run (find start)).value = some result ∧
      Finds w.files (searched w.files start) start result := by
  have plays : World.server.play (find start) w = _ :=
    Server.play_then (play_firstPresent (candidates start))
  have nearest := find?_candidates w.files start
  rw [World.run, (Server.run_none World.server (find start) 0 w).1, plays]
  cases first : (candidates start).find? w.files.found with
  | none =>
    rw [first] at nearest
    exact ⟨_, rfl, .none nearest.symm⟩
  | some path =>
    rw [first] at nearest
    obtain ⟨place, located, -⟩ := found_iff.1 (List.find?_some first)
    rw [Option.map_some, ← place_of_locate located] at nearest
    exact ⟨_, rfl, .file nearest.symm located⟩

end Search

/-- The directories above those to which the search can come. -/
def beyond (t : FileTree) (start : String) : List String :=
  if Path.isAbsolute start then [] else (Path.ancestors t.present).tail

section Climbing
open HostRoster.Path

variable {t : FileTree} {dir : String} {text : List Char}

theorem nearest?_cons (dirs : List String) :
    nearest? t (dir :: dirs) = (fileIn? t dir).or (nearest? t dirs) := by
  rw [nearest?, nearest?, List.findSome?_cons]
  cases fileIn? t dir <;> rfl

theorem searched_eq {start : String} (leads : t.directory? start = some dir) :
    searched t start = dir :: (parent? start).elim [] (searched t) := by
  rw [searched, ancestors_eq, List.filterMap_cons_some leads]
  cases parent? start <;> rfl

theorem directory?_ofBackwards :
    t.directory? (ofBackwards text) = some dir ↔ t.Leads text.reverse dir := by
  rw [directory?_eq_some, ofBackwards, String.toList_ofList]

/-- The search from the text of a directory goes up through the directories above it. -/
structure Climbs (t : FileTree) (text : List Char) (dir : String) : Prop where
  placed : Placed dir
  up : ∃ near, ancestors dir = dir :: near ++ beyond t (ofBackwards text) ∧
    nearest? t (searched t (ofBackwards text)) = nearest? t (dir :: near)

/-- Where no text is left, it is at the root or in the present directory. -/
theorem climbs_top (placed : Placed t.present) (top : parentBack? text = none)
    (leads : t.Leads text.reverse dir) : Climbs t text dir := by
  have alone : searched t (ofBackwards text) = [dir] := by
    rw [searched_eq (directory?_ofBackwards.2 leads), parent?_ofBackwards, top]
    rfl
  have bounds : beyond t (ofBackwards text) =
      if (trimBack text).getLast? == some '/' then [] else (ancestors t.present).tail := by
    rw [beyond, isAbsolute_ofBackwards, getLast?_trimBack]
  have trimmed := (leads_trimBack text).2 leads
  rw [parentBack?] at top
  split at top
  · rename_i shape
    obtain empty | root := shape
    · rw [empty] at trimmed bounds
      obtain ⟨walked, -⟩ := trimmed
      obtain rfl : t.present = dir := Except.ok.inj walked
      refine ⟨placed, [], ?_, congrArg _ alone⟩
      rw [bounds, ancestors_eq]
      rfl
    · rw [root] at trimmed bounds
      obtain ⟨walked, -⟩ := trimmed
      obtain rfl : "/" = dir := Except.ok.inj walked
      refine ⟨.root, [], ?_, congrArg _ alone⟩
      rw [bounds, ancestors_root]
      rfl
  · cases top

/-- From the name of a directory it goes to the directory that holds it, and a dot at the start is
the same directory once more. -/
theorem climbs_on {above name : List Char} (parent : parentBack? text = some (trimBack above.reverse))
    (splits : Splits text above name) (dots : name ≠ ['.', '.']) (leads : t.Leads text.reverse dir)
    (onward : ∀ dir, t.Leads above dir → Climbs t (trimBack above.reverse) dir) :
    Climbs t text dir := by
  have more : nearest? t (searched t (ofBackwards text)) =
      (fileIn? t dir).or (nearest? t (searched t (ofBackwards (trimBack above.reverse)))) := by
    rw [searched_eq (directory?_ofBackwards.2 leads), parent?_ofBackwards, parent, nearest?_cons]
    rfl
  have bounds : beyond t (ofBackwards (trimBack above.reverse)) = beyond t (ofBackwards text) := by
    rw [beyond, beyond, splits.isAbsolute_eq]
  have trimmed := (leads_trimBack text).2 leads
  rw [splits.trimmed] at trimmed
  by_cases dot : name = ['.']
  · obtain rfl := splits.dot dot
    subst dot
    obtain ⟨placed, near, ancestors, same⟩ := onward dir (leads_only_dot.1 trimmed)
    refine ⟨placed, near, bounds ▸ ancestors, ?_⟩
    rw [more, same, nearest?_cons, ← Option.or_assoc, Option.or_self]
  · have proper := And.intro splits.some (And.intro dot dots)
    obtain ⟨holder, leads', rfl, -⟩ := (leads_name splits.ends splits.plain proper).1 trimmed
    obtain ⟨placed, near, ancestors, same⟩ := onward holder leads'
    refine ⟨placed.inside splits.plain proper, holder :: near, ?_, ?_⟩
    · rw [placed.ancestors_child splits.plain proper, ancestors, bounds]
      rfl
    · rw [more, same, ← nearest?_cons]

/-- By induction on the text. -/
theorem climbs (placed : Placed t.present) (plain : ".." ∉ words text.reverse)
    (leads : t.Leads text.reverse dir) : Climbs t text dir := by
  induction text using ancestorsBack.induct generalizing dir with
  | case1 text top => exact climbs_top placed top leads
  | case2 text _ parent ih =>
    obtain ⟨above, name, splits, rfl⟩ := exists_splits parent
    have segments : words (trimBack text).reverse = words above ++ [.ofList name] := by
      rw [splits.trimmed, words_of_ends splits.ends, words_of_plain splits.plain splits.some]
    have kept {segment : String} (mem : segment ∈ words above ++ [.ofList name]) :
        segment ∈ words text.reverse := mem_words_trimBack text (segments ▸ mem)
    refine climbs_on parent splits ?_ leads fun dir leads => ih ?_ ?_
    · rintro rfl
      exact plain (kept (List.mem_append_right _ (by decide)))
    · intro mem
      have mem' := mem_words_trimBack _ mem
      rw [List.reverse_reverse] at mem'
      exact plain (kept (List.mem_append_left _ mem'))
    · rw [leads_trimBack, List.reverse_reverse]
      exact leads

/-- From a dot the search stays in the present directory. -/
theorem searched_dot (stands : t.entry? t.present = some .directory) :
    searched t "." = [t.present, t.present] := by
  have here : t.Leads [] t.present := ⟨rfl, stands⟩
  have dot : t.directory? "." = some t.present := directory?_eq_some.2 (leads_only_dot.2 here)
  have empty : t.directory? "" = some t.present := directory?_eq_some.2 here
  have left : parent? "." = some "" := by decide +kernel
  have nothing : parent? "" = none := by decide +kernel
  rw [searched_eq dot, left, Option.elim_some, searched_eq empty, nothing]
  rfl

theorem Finds.of_nearest {dirs dirs' : List String} {start : String}
    {result : Except ConfigError String} (h : Finds t dirs start result)
    (same : nearest? t dirs = nearest? t dirs') : Finds t dirs' start result := by
  cases h with
  | file nearest leads => exact .file (same.symm.trans nearest) leads
  | none none => exact .none (same.symm.trans none)

theorem finds_append_iff {near far : List String} {start : String}
    {result : Except ConfigError String} (h : Finds t near start result) :
    Finds t (near ++ far) start result ↔
      (∃ path, result = .ok path) ∨ nearest? t far = none := by
  have both : nearest? t (near ++ far) = (nearest? t near).or (nearest? t far) :=
    List.findSome?_append
  cases h with
  | file nearest leads =>
    refine iff_of_true (.file ?_ leads) (.inl ⟨_, rfl⟩)
    rw [both, nearest, Option.some_or]
  | none none =>
    rw [none, Option.none_or] at both
    constructor
    · intro finds
      cases finds with
      | none nothing => exact .inr (both.symm.trans nothing)
    · rintro (⟨path, same⟩ | nothing)
      · cases same
      · exact .none (both.trans nothing)

end Climbing

/-- What looking for a configuration comes to. -/
structure Searches (t : FileTree) (start : String) (result : Except ConfigError String) : Prop where
  /-- It is what is nearest in the directories to which the text of the start leads. -/
  textual : Finds t (searched t start) start result
  /-- From a directory whose path has no double dots, these are the directory and those above it: up
  to the root if the path is absolute, and up to the present directory if it is not. -/
  upward : ∀ dir, t.directory? start = some dir → ".." ∉ Path.segments start →
    ∃ near, Path.ancestors dir = near ++ beyond t start ∧ Finds t near start result
  /-- From a dot it is what is in the present directory. -/
  fromDot : start = "." → t.entry? t.present = some .directory → Finds t [t.present] start result
  /-- So it is what is nearest on the way up to the root exactly if something is found, or if there is
  nothing to be found in the directories that are left out. -/
  lawful : ∀ dir, t.directory? start = some dir → ".." ∉ Path.segments start →
    (Finds t (Path.ancestors dir) start result ↔
      (∃ path, result = .ok path) ∨ nearest? t (beyond t start) = none)

/-- Looking for a configuration always ends, and it goes up as far as the text of its start does. -/
theorem find_searches (w : World) (placed : Placed w.files.present) (start : String) :
    ∃ result, (w.run (find start)).value = some result ∧ Searches w.files start result := by
  obtain ⟨result, value, textual⟩ := exists_finds w start
  have upward : ∀ dir, w.files.directory? start = some dir → ".." ∉ Path.segments start →
      ∃ near, Path.ancestors dir = near ++ beyond w.files start ∧
        Finds w.files near start result := by
    intro dir leads dots
    have back : Path.ofBackwards (Path.backwards start) = start := by
      simp [Path.ofBackwards, Path.backwards]
    have plain : ".." ∉ Path.words (Path.backwards start).reverse := by
      rw [Path.backwards, List.reverse_reverse]
      exact fun mem => dots (List.mem_append_left _ mem)
    rw [← back] at leads
    obtain ⟨-, near, ancestors, same⟩ := climbs placed plain (directory?_ofBackwards.1 leads)
    rw [back] at ancestors same
    exact ⟨dir :: near, ancestors, textual.of_nearest same⟩
  refine ⟨result, value, textual, upward, ?_, fun dir leads dots => ?_⟩
  · rintro rfl stands
    refine textual.of_nearest ?_
    rw [searched_dot stands, nearest?_cons, nearest?_cons, ← Option.or_assoc, Option.or_self]
  · obtain ⟨near, ancestors, finds⟩ := upward dir leads dots
    rw [ancestors]
    exact finds_append_iff finds

/-- A configuration in the root, above the directory from which paths are seen. -/
def inSubdirectory : World where
  files := (({ present := "/sub" } : FileTree).put "/sub" .directory).put "/hostsync.yaml"
    (.file (.text ""))
  clock := ⟨0, 0⟩
  process := ""

theorem placed_sub : Placed inSubdirectory.files.present :=
  @Placed.inside "/" ['s', 'u', 'b'] .root (by decide) (by decide)

/-- On the way from there to the root the configuration is what is nearest. -/
theorem nearest?_sub :
    nearest? inSubdirectory.files (Path.ancestors "/sub") = some "/hostsync.yaml" := by
  have above : Path.parent? "/sub" = some "/" := by decide +kernel
  rw [Path.ancestors_eq, above, Option.elim_some, ancestors_root]
  decide +kernel

theorem find_searches_absolute :
    ∃ path, (inSubdirectory.run (find "/sub")).value = some (.ok path) ∧
      inSubdirectory.files.locate path = .ok "/hostsync.yaml" := by
  obtain ⟨result, value, searches⟩ := find_searches inSubdirectory placed_sub "/sub"
  have finds := (searches.lawful "/sub" (by decide +kernel) (by decide +kernel)).2 (.inr rfl)
  cases finds with
  | @file path place nearest leads =>
    rw [nearest?_sub] at nearest
    cases nearest
    exact ⟨path, value, leads⟩
  | none none =>
    rw [nearest?_sub] at none
    cases none

/-- So from a dot, which leads to the present directory, it is missed. -/
theorem not_find_always_lawful :
    ¬ ∀ (w : World) (start dir : String), Placed w.files.present →
      w.files.directory? start = some dir → ∃ result, (w.run (find start)).value = some result ∧
        Finds w.files (Path.ancestors dir) start result := by
  intro law
  obtain ⟨result, value, finds⟩ := law inSubdirectory "." "/sub" placed_sub (by decide +kernel)
  obtain ⟨result', value', finds'⟩ := exists_finds inSubdirectory "."
  obtain rfl : result = result' := Option.some.inj (value.symm.trans value')
  have missed : nearest? inSubdirectory.files (searched inSubdirectory.files ".") = none := by
    rw [searched_dot rfl]
    decide +kernel
  cases finds' with
  | file nearest =>
    rw [missed] at nearest
    cases nearest
  | none =>
    cases finds with
    | none none =>
      rw [nearest?_sub] at none
      cases none

end Config

end HostRoster
