import HostRoster.Proofs.FileTrees
import HostRoster.Proofs.Almanac
import HostRoster.Store.Files

/-!
# Stores of files keep documents

A path can be followed as long as the directories on it are there, and no call of a store takes
a directory away. So once the directory of a store has been made, its files can be read, replaced
and deleted at will, and one of them is not touched by what is done to the other.
-/
namespace HostRoster

namespace FileTree
open HostRoster.Path

variable {t t' : FileTree} {path place : String} {dir name : List Char}

/-- A path that ends in a name can be located exactly if the text of its directory leads to a
directory. -/
theorem locate_name_iff (h : Names path dir name) :
    t.locate path = .ok place ↔
      (words dir).foldlM t.step (t.start path) = .ok (t.reach dir) ∧
        t.entry? (t.reach dir) = some .directory ∧ t.place path = place := by
  have some_ : path ≠ "" := by
    rintro rfl
    have empty := h.text
    simp [h.proper.1] at empty
  have last : follow (t.reach dir) (.ofList name) = t.place path :=
    (follow_ofList _ h.proper.2.1 h.proper.2.2).trans (place_eq h).symm
  rw [locate_ok_iff, h.segments_eq, List.foldlM_append]
  constructor
  · rintro ⟨-, located⟩
    obtain ⟨base, walked, onward⟩ := bind_ok located
    obtain rfl : base = t.reach dir := by
      rw [foldlM_step_ok walked, start_eq h, reach, walk]
    obtain ⟨next, stepped, same⟩ := bind_ok onward
    obtain ⟨stands, rfl⟩ := step_ok_iff.1 stepped
    exact ⟨walked, stands, last.symm.trans (Except.ok.inj same)⟩
  · rintro ⟨walked, stands, rfl⟩
    refine ⟨some_, ?_⟩
    rw [walked]
    change [String.ofList name].foldlM t.step (t.reach dir) = _
    rw [List.foldlM_cons, step_ok_iff.2 ⟨stands, last⟩]
    rfl

/-- The same places are directories. -/
structure SameDirectories (t t' : FileTree) : Prop where
  present : t'.present = t.present
  directories : ∀ place, t'.entry? place = some .directory ↔ t.entry? place = some .directory

theorem SameDirectories.trans {t'' : FileTree} (first : t.SameDirectories t')
    (second : t'.SameDirectories t'') : t.SameDirectories t'' :=
  ⟨second.present.trans first.present,
    fun place => (second.directories place).trans (first.directories place)⟩

theorem SameDirectories.symm (same : t.SameDirectories t') : t'.SameDirectories t :=
  ⟨same.present.symm, fun place => (same.directories place).symm⟩

/-- Which paths can be located depends on the directories only. -/
theorem SameDirectories.locate (same : t.SameDirectories t') (h : t.locate path = .ok place) :
    t'.locate path = .ok place := by
  have walks : ∀ (segments : List String) (start : String),
      segments.foldlM t.step start = .ok place → segments.foldlM t'.step start = .ok place := by
    intro segments
    induction segments with
    | nil => exact fun start done => done
    | cons segment rest ih =>
      intro start walked
      rw [List.foldlM_cons] at walked ⊢
      obtain ⟨next, stepped, onward⟩ := bind_ok walked
      obtain ⟨stands, follows⟩ := step_ok_iff.1 stepped
      rw [step_ok_iff.2 ⟨(same.directories start).2 stands, follows⟩]
      exact ih next onward
  obtain ⟨some_, walked⟩ := locate_ok_iff.1 h
  have from_ : t'.start path = t.start path := by rw [start, same.present, start]
  exact locate_ok_iff.2 ⟨some_, from_ ▸ walks _ _ walked⟩

theorem ne_root_of_free (free : t.entry? place ≠ some .directory) : place ≠ "/" := by
  rintro rfl
  exact free rfl

theorem sameDirectories_put (free : t.entry? place ≠ some .directory) (content : FileContent) :
    t.SameDirectories (t.put place (.file content)) := by
  refine ⟨rfl, fun other => ?_⟩
  by_cases here : other = place
  · subst here
    simp [entry_put t (ne_root_of_free free), free]
  · rw [entry_put_of_ne t here]

theorem sameDirectories_without (free : t.entry? place ≠ some .directory) :
    t.SameDirectories (t.without place) := by
  refine ⟨rfl, fun other => ?_⟩
  by_cases here : other = place
  · subst here
    simp [entry_without t (ne_root_of_free free), free]
  · rw [entry_without_of_ne t here]

/-- A file can be written at a path, whether or not there is one. -/
def Free (t : FileTree) (path : String) : Prop :=
  ∃ place, t.locate path = .ok place ∧ t.entry? place ≠ some .directory

theorem SameDirectories.free (same : t.SameDirectories t') (h : t.Free path) : t'.Free path := by
  obtain ⟨place, located, free⟩ := h
  exact ⟨place, same.locate located, (same.directories place).not.2 free⟩

theorem exists_overwritten (h : t.Free path) (text : String) :
    ∃ t', t.overwrite path text = .ok t' := by
  obtain ⟨place, located, free⟩ := h
  exact ⟨_, overwrite_ok_iff.2 ⟨place, located, free, rfl⟩⟩

theorem edit_of_file {content : FileContent} (located : t.locate path = .ok place)
    (stands : t.entry? place = some (.file content)) (f : FileContent → FileContent) :
    t.edit path f = .ok (t.put place (.file (f content))) := by
  rw [edit, located]
  dsimp only [bind, Except.bind]
  rw [stands]

/-- A file that was emptied and is then given a text is given it in one go. -/
theorem exists_edited (created : t.overwrite path "" = .ok t') (text : String) :
    ∃ next, t'.edit path (fun _ => .text text) = .ok next ∧ t.overwrite path text = .ok next := by
  obtain ⟨place, located, free, rfl⟩ := overwrite_ok_iff.1 created
  have located' := (sameDirectories_put free (.text "")).locate located
  have stands := entry_put t (ne_root_of_free free) (.file (.text ""))
  refine ⟨t.put place (.file (.text text)), ?_, overwrite_ok_iff.2 ⟨place, located, free, rfl⟩⟩
  rw [edit_of_file located' stands, put_put]

theorem overwrite_error {other text : String} {trouble : Trouble}
    (refused : t.overwrite path other = .error trouble) : t.overwrite path text = .error trouble := by
  unfold overwrite at refused ⊢
  cases located : t.locate path with
  | error reason =>
    rw [located] at refused
    exact refused
  | ok place =>
    rw [located] at refused
    dsimp only [bind, Except.bind] at refused ⊢
    split at refused
    · exact refused
    · cases refused

theorem delete_of_file {content : FileContent} (located : t.locate path = .ok place)
    (stands : t.entry? place = some (.file content)) : t.delete path = .ok (t.without place) := by
  rw [delete, located]
  dsimp only [bind, Except.bind]
  rw [stands]
  rfl

theorem rename_of_file {source target new : String} {content : FileContent}
    (located : t.locate source = .ok place) (stands : t.entry? place = some (.file content))
    (located' : t.locate target = .ok new) (free : t.entry? new ≠ some .directory) :
    t.rename source target = .ok ((t.without place).put new (.file content)) := by
  rw [rename, located, located']
  dsimp only [bind, Except.bind]
  rw [stands]
  split
  · cases ‹some _ = none›
  · cases ‹some _ = some _›
  · exact absurd ‹_› free
  · cases ‹some _ = some _›
    rfl

/-- A file beside another is written and then takes the place of the other. -/
theorem exists_replaced {draft beside : String} (drafts : t.locate draft = .ok beside)
    (draftFree : t.entry? beside ≠ some .directory) (located : t.locate path = .ok place)
    (free : t.entry? place ≠ some .directory) (text : String) :
    ∃ created written last, t.overwrite draft "" = .ok created ∧
      created.edit draft (fun _ => .text text) = .ok written ∧
      written.rename draft path = .ok last ∧ t.SameDirectories last ∧
      last.entry? place = some (.file (.text text)) ∧
      ∀ other, other ≠ beside → other ≠ place → last.entry? other = t.entry? other := by
  have proper := ne_root_of_free draftFree
  let created := t.put beside (.file (.text ""))
  have empty : created.entry? beside = _ := entry_put t proper _
  have creation : t.SameDirectories created := sameDirectories_put draftFree _
  let written := created.put beside (.file (.text text))
  have filled : written.entry? beside = _ := entry_put created proper _
  have writing : t.SameDirectories written :=
    creation.trans (sameDirectories_put ((creation.directories _).not.2 draftFree) _)
  have moving : t.SameDirectories (written.without beside) :=
    writing.trans (sameDirectories_without ((writing.directories _).not.2 draftFree))
  refine ⟨created, written, (written.without beside).put place (.file (.text text)),
    overwrite_ok_iff.2 ⟨_, drafts, draftFree, rfl⟩,
    edit_of_file (creation.locate drafts) empty _,
    rename_of_file (writing.locate drafts) filled (writing.locate located)
      ((writing.directories _).not.2 free),
    moving.trans (sameDirectories_put ((moving.directories _).not.2 free) _),
    entry_put _ (ne_root_of_free free) _, fun other apart apart' => ?_⟩
  rw [entry_put_of_ne _ apart', entry_without_of_ne _ apart]
  exact (entry_put_of_ne _ apart _).trans (entry_put_of_ne _ apart _)

theorem stands_of_walk {segments : List String} {start : String}
    (walked : segments.foldlM t.step start = .ok place)
    (stands : t.entry? place = some .directory) : t.entry? start = some .directory := by
  cases segments with
  | nil =>
    cases walked
    exact stands
  | cons segment rest =>
    rw [List.foldlM_cons] at walked
    obtain ⟨next, stepped, -⟩ := bind_ok walked
    exact (step_ok_iff.1 stepped).1

/-- Nothing is made on the way to a directory. -/
theorem foldlM_descend_of_walk {segments : List String} {start : String}
    (walked : segments.foldlM t.step start = .ok place)
    (stands : t.entry? place = some .directory) :
    segments.foldlM descend (t, start) = .ok (t, place) := by
  induction segments generalizing start with
  | nil =>
    cases walked
    rfl
  | cons segment rest ih =>
    rw [List.foldlM_cons] at walked ⊢
    obtain ⟨next, stepped, onward⟩ := bind_ok walked
    rw [descend_ok_iff.2 ⟨next, stepped, .inl ⟨stands_of_walk onward stands, rfl⟩⟩]
    exact ih onward

/-- What is on the way to something that is there is made neither. -/
theorem eq_of_foldlM_descend {segments : List String} {start : String}
    {visit : FileTree × String} (walked : segments.foldlM t.step start = .ok place)
    (stands : t.entry? place ≠ none) (down : segments.foldlM descend (t, start) = .ok visit) :
    visit.1 = t := by
  induction segments generalizing start with
  | nil =>
    cases down
    rfl
  | cons segment rest ih =>
    rw [List.foldlM_cons] at walked down
    obtain ⟨first, descended, others⟩ := bind_ok down
    obtain ⟨next, stepped, made⟩ := descend_ok_iff.1 descended
    rw [stepped] at walked
    rcases made with ⟨-, rfl⟩ | ⟨missing, rfl⟩
    · exact ih walked others
    · cases rest with
      | nil =>
        cases walked
        exact absurd missing stands
      | cons segment' rest =>
        change (segment' :: rest).foldlM t.step next = .ok place at walked
        rw [List.foldlM_cons] at walked
        obtain ⟨_, stepped', -⟩ := bind_ok walked
        rw [(step_ok_iff.1 stepped').1] at missing
        cases missing

/-- Whether something is found at a path. -/
def found (t : FileTree) (path : String) : Bool := ((t.locate path).toOption >>= t.entry?).isSome

theorem found_iff : t.found path = true ↔
    ∃ place, t.locate path = .ok place ∧ t.entry? place ≠ none := by
  unfold found
  cases t.locate path with
  | error trouble => simp [Except.toOption]
  | ok place => simp [Except.toOption, Option.isSome_iff_ne_none]

/-- Making a directory that is there changes nothing. -/
theorem eq_of_makeDirectory (made : t.makeDirectory path = .ok t')
    (there : t.found path = true) : t' = t := by
  obtain ⟨place, located, stands⟩ := found_iff.1 there
  obtain ⟨visit, down, same⟩ := bind_ok made
  rw [← Except.ok.inj same]
  exact eq_of_foldlM_descend (locate_ok_iff.1 located).2 stands down

/-- A directory in which a file can be located can be made without change. -/
theorem makeDirectory_of_locate {directory : String} (h : Before directory dir)
    (named : Names path dir name) (located : t.locate path = .ok place) :
    t.makeDirectory directory = .ok t := by
  obtain ⟨walked, stands, -⟩ := (locate_name_iff named).1 located
  rw [h.words, h.start_eq named] at walked
  have all : (segments directory).foldlM t.step (t.start directory) = .ok (t.reach dir) := by
    rw [segments, List.foldlM_append]
    change (words directory.toList).foldlM t.step _ >>= _ = _
    rw [walked]
    split
    · change ["."].foldlM t.step (t.reach dir) = _
      rw [List.foldlM_cons, step_ok_iff.2 ⟨stands, rfl⟩]
      rfl
    · rfl
  rw [FileTree.makeDirectory, foldlM_descend_of_walk all stands]
  rfl

/-- The tree in which there is a directory, which is made if nothing is found. -/
def opened (t : FileTree) (directory : String) : Except Trouble FileTree :=
  if t.found directory then .ok t else t.makeDirectory directory

theorem spares_opened {directory : String} (made : t.opened directory = .ok t') : t.Spares [] t' := by
  unfold opened at made
  split at made
  · cases made
    exact .refl t _
  · exact makeDirectory_ok made

/-- What is found at a path: a text, or nothing at all. -/
def Holds (t : FileTree) (path : String) : Option String → Prop
  | none => ∀ place, t.locate path = .ok place → t.entry? place = none
  | some text => t.read path = .ok text

theorem read_ok_iff {text : String} : t.read path = .ok text ↔
    ∃ place, t.locate path = .ok place ∧ t.entry? place = some (.file (.text text)) := by
  constructor
  · intro found
    obtain ⟨content, stored, shown⟩ := bind_ok found
    obtain ⟨place, located, entry⟩ := bind_ok stored
    refine ⟨place, located, ?_⟩
    split at entry
    · cases entry
    · cases entry
    · rename_i here
      cases entry
      split at shown
      · cases shown
        exact here
      · cases shown
  · rintro ⟨place, located, stands⟩
    rw [read, content, located]
    dsimp only [bind, Except.bind]
    rw [stands]

/-- At a path is what was there, as far as that is all in its place. -/
theorem SameDirectories.read {text : String} (same : t.SameDirectories t')
    (here : t'.entry? (t.place path) = t.entry? (t.place path)) (reads : t.read path = .ok text) :
    t'.read path = .ok text := by
  obtain ⟨place, located, stands⟩ := read_ok_iff.1 reads
  rw [← place_of_locate located, stands] at here
  exact read_ok_iff.2 ⟨place, same.locate located, here⟩

/-- A text has been written to one file. -/
structure Overwrites (t : FileTree) (path text : String) (t' : FileTree) : Prop where
  free : t.Free path
  same : t.SameDirectories t'
  reads : t'.read path = .ok text
  others : ∀ other, other ≠ t.place path → t'.entry? other = t.entry? other

theorem overwrites_of_ok {text : String} (written : t.overwrite path text = .ok t') :
    t.Overwrites path text t' := by
  obtain ⟨place, located, free, rfl⟩ := overwrite_ok_iff.1 written
  have same := sameDirectories_put free (.text text)
  have stands := entry_put t (ne_root_of_free free) (.file (.text text))
  refine ⟨⟨place, located, free⟩, same, read_ok_iff.2 ⟨place, same.locate located, stands⟩, ?_⟩
  rw [← place_of_locate located]
  exact fun other apart => entry_put_of_ne t apart _

/-- The text that a file has can be written to it without change. -/
theorem overwrite_self {text : String} (reads : t.read path = .ok text) :
    t.overwrite path text = .ok t := by
  obtain ⟨place, located, stands⟩ := read_ok_iff.1 reads
  have free : t.entry? place ≠ some .directory := by simp [stands]
  exact overwrite_ok_iff.2 ⟨place, located, free, put_of_entry (ne_root_of_free free) stands⟩

/-- To add to the text of a file is to write the longer text. -/
theorem edit_append {text : String} (reads : t.read path = .ok text) (more : String) :
    t.edit path (·.append more) = t.overwrite path (text ++ more) := by
  obtain ⟨place, located, stands⟩ := read_ok_iff.1 reads
  have free : t.entry? place ≠ some .directory := by simp [stands]
  rw [edit_of_file located stands]
  exact (overwrite_ok_iff.2 ⟨place, located, free, rfl⟩).symm

variable {text : Option String}

/-- At a path that can be located is found what stands at its place. -/
theorem holds_iff (located : t.locate path = .ok place) :
    t.Holds path text ↔ t.entry? place = text.map fun x => .file (.text x) := by
  cases text with
  | none =>
    change (∀ place, t.locate path = .ok place → t.entry? place = none) ↔ t.entry? place = none
    simp [located]
  | some text =>
    change t.read path = .ok text ↔ t.entry? place = some (.file (.text text))
    rw [read_ok_iff, located]
    simp

/-- Where a file can be written, what is found is told by the file at the place. -/
theorem holds_of_free (h : t.Free path) (file : t.file? (t.place path) = text.map .text) :
    t.Holds path text := by
  obtain ⟨place, located, free⟩ := h
  rw [holds_iff located]
  rw [← place_of_locate located, file?] at file
  cases stands : t.entry? place with
  | none =>
    rw [stands] at file
    rw [Option.map_eq_none_iff.1 file.symm]
    rfl
  | some entry =>
    cases entry with
    | directory => exact absurd stands free
    | file content =>
      rw [stands] at file
      obtain ⟨text, rfl, rfl⟩ := Option.map_eq_some_iff.1 file.symm
      rfl

theorem Holds.found_eq (h : t.Holds path text) : t.found path = text.isSome := by
  cases text with
  | none =>
    change ∀ place, t.locate path = .ok place → t.entry? place = none at h
    rw [Option.isSome_none, ← Bool.not_eq_true, found_iff]
    rintro ⟨place, located, stands⟩
    exact stands (h place located)
  | some text =>
    obtain ⟨place, located, stands⟩ := read_ok_iff.1 h
    exact found_iff.2 ⟨place, located, by simp [stands]⟩

end FileTree

namespace FileStore

section Places
variable {directory : String} {dir : List Char} (t : FileTree)

theorem names_path (before : FileTree.Before directory dir) (d : Document) :
    Path.Names ((ofDirectory directory).path d) dir d.fileName.toList := by
  cases d with
  | state => exact before.names "state.json" (by decide) (by decide)
  | lock => exact before.names "state.lock" (by decide) (by decide)

/-- Both documents are first written to a file of one name. -/
theorem names_draft (before : FileTree.Before directory dir) (d : Document) :
    Path.Names (draftPath ((ofDirectory directory).path d)) dir "state.tmp".toList := by
  have named := (names_path before d).withEnding (show '/' ∉ "tmp".toList by decide) (by decide)
  cases d with
  | state => exact named
  | lock => exact named

theorem place_path_ne {d e : Document} (apart : d ≠ e) :
    t.place ((ofDirectory directory).path d) ≠ t.place ((ofDirectory directory).path e) := by
  obtain ⟨dir, before⟩ := FileTree.exists_before directory
  rw [FileTree.place_eq (names_path before d), FileTree.place_eq (names_path before e)]
  refine FileTree.child_ne _ ?_
  cases d <;> cases e <;> first | exact absurd rfl apart | decide

theorem place_draft_ne (d e : Document) :
    t.place (draftPath ((ofDirectory directory).path d)) ≠
      t.place ((ofDirectory directory).path e) := by
  obtain ⟨dir, before⟩ := FileTree.exists_before directory
  rw [FileTree.place_eq (names_draft before d), FileTree.place_eq (names_path before e)]
  refine FileTree.child_ne _ ?_
  cases e <;> decide

end Places

/-- A store of files keeps texts without fail: its directory is there or can be made, the files to
which the documents are first written can be created in it, and the documents are found to hold the
texts, whether or not the directory has been made. -/
structure Keeps (s : FileStore) (t : FileTree) (texts : Document → Option String) : Prop where
  holds : ∀ d, t.Holds (s.path d) (texts d)
  made : ∃ t', t.makeDirectory s.directory = .ok t' ∧
    ∀ d, t'.Holds (s.path d) (texts d) ∧ ∃ next, t'.overwrite (draftPath (s.path d)) "" = .ok next

/-- The directory of a store is there, and its files can be reached. -/
structure Ready (s : FileStore) (t : FileTree) (texts : Document → Option String) : Prop where
  located : ∀ d, t.locate (s.path d) = .ok (t.place (s.path d))
  stored : ∀ d, t.entry? (t.place (s.path d)) = (texts d).map fun x => .file (.text x)
  beside : ∀ d, t.locate (draftPath (s.path d)) = .ok (t.place (draftPath (s.path d)))
  free : ∀ d, t.entry? (t.place (draftPath (s.path d))) ≠ some .directory

section Ready
variable {directory : String} {s : FileStore} {t t' : FileTree}
  {texts : Document → Option String}

theorem Ready.free_path (h : s.Ready t texts) (d : Document) :
    t.entry? (t.place (s.path d)) ≠ some .directory := by
  rw [h.stored]
  cases texts d <;> simp

/-- Only one of the documents holds another text, and all directories are still there. -/
theorem Ready.update (h : s.Ready t texts) (same : t.SameDirectories t') (d : Document)
    (text : Option String)
    (here : t'.entry? (t.place (s.path d)) = text.map fun x => .file (.text x))
    (others : ∀ e ≠ d, t'.entry? (t.place (s.path e)) = t.entry? (t.place (s.path e))) :
    s.Ready t' (Function.update texts d text) := by
  have places := FileTree.place_of_present same.present
  refine ⟨fun e => ?_, fun e => ?_, fun e => ?_, fun e => ?_⟩
  · rw [places]
    exact same.locate (h.located e)
  · rw [places]
    by_cases this : e = d
    · subst this
      rw [here, Function.update_self]
    · rw [others e this, h.stored, Function.update_of_ne this]
  · rw [places]
    exact same.locate (h.beside e)
  · rw [places, Ne, same.directories]
    exact h.free e

theorem Ready.keeps (h : (ofDirectory directory).Ready t texts) :
    (ofDirectory directory).Keeps t texts := by
  have holds := fun d => (FileTree.holds_iff (h.located d)).2 (h.stored d)
  obtain ⟨dir, before⟩ := FileTree.exists_before directory
  have made := FileTree.makeDirectory_of_locate before (names_path before .state) (h.located .state)
  exact ⟨holds, t, made, fun d =>
    ⟨holds d, _, FileTree.overwrite_ok_iff.2 ⟨_, h.beside d, h.free d, rfl⟩⟩⟩

theorem Keeps.ready (h : (ofDirectory directory).Keeps t texts) :
    ∃ t', t.makeDirectory (ofDirectory directory).directory = .ok t' ∧
      (ofDirectory directory).Ready t' texts := by
  obtain ⟨t', made, usable⟩ := h.made
  obtain ⟨dir, before⟩ := FileTree.exists_before directory
  have created := fun d => FileTree.overwrite_ok_iff.1 (usable d).2.choose_spec
  have located : ∀ d, t'.locate ((ofDirectory directory).path d) =
      .ok (t'.place ((ofDirectory directory).path d)) := by
    intro d
    obtain ⟨place, located, -, -⟩ := created d
    obtain ⟨walked, stands, -⟩ := (FileTree.locate_name_iff (names_draft before d)).1 located
    rw [before.start_eq (names_draft before d), ← before.start_eq (names_path before d)] at walked
    exact (FileTree.locate_name_iff (names_path before d)).2 ⟨walked, stands, rfl⟩
  refine ⟨t', made, located, fun d => ?_, fun d => ?_, fun d => ?_⟩
  · exact (FileTree.holds_iff (located d)).1 (usable d).1
  · obtain ⟨place, located, -, -⟩ := created d
    rw [located, FileTree.place_of_locate located]
  · obtain ⟨place, located, free, -⟩ := created d
    rwa [← FileTree.place_of_locate located]

/-- A text is written to the file beside a document, which then takes the place of the document. -/
theorem Ready.replace (h : (ofDirectory directory).Ready t texts) (d : Document) (text : String) :
    ∃ created written last,
      t.overwrite (draftPath ((ofDirectory directory).path d)) "" = .ok created ∧
      created.edit (draftPath ((ofDirectory directory).path d)) (fun _ => .text text) =
        .ok written ∧
      written.rename (draftPath ((ofDirectory directory).path d))
        ((ofDirectory directory).path d) = .ok last ∧
      (ofDirectory directory).Ready last (Function.update texts d (some text)) := by
  obtain ⟨created, written, last, creates, writes, places, same, here, others⟩ :=
    FileTree.exists_replaced (h.beside d) (h.free d) (h.located d) (h.free_path d) text
  refine ⟨created, written, last, creates, writes, places, h.update same d _ here fun e other => ?_⟩
  exact others _ (place_draft_ne t d e).symm (place_path_ne t other)

/-- A document is removed from a directory that is there. -/
theorem Ready.remove (h : (ofDirectory directory).Ready t texts) (d : Document) :
    (ofDirectory directory).Ready (t.without (t.place ((ofDirectory directory).path d)))
      (Function.update texts d none) := by
  have free := h.free_path d
  refine h.update (FileTree.sameDirectories_without free) d none
    (FileTree.entry_without t (FileTree.ne_root_of_free free)) fun e other => ?_
  exact FileTree.entry_without_of_ne t (place_path_ne t other)

end Ready

section Calls
variable {a : Almanac} {w : World} {asked : Nat} {s : FileStore} {t' : FileTree}
  {path directory : String} {text : Option String} {texts : Document → Option String}

theorem play_contains : a.machine.play (Machine.file (.contains path) : Program Machine Bool)
    (w, asked) = (w.files.found path, w, asked) := rfl

theorem play_readFile (h : w.files.Holds path text) :
    a.machine.play (readFile path) (w, asked) = (.ok text, w, asked) := by
  refine (Server.play_then play_contains).trans ?_
  rw [h.found_eq]
  cases text with
  | none => rfl
  | some text =>
    have read : a.machine.play (Machine.file (.read path) : Program Machine (Except String String))
        (w, asked) = (.ok text, w, asked) :=
      congrArg (fun found => (Except.mapError FileTree.Trouble.message found, w, asked)) h
    exact Server.play_then read

theorem play_file_of {call : FileCall} {reply : call.Answer}
    (carries : w.files.carryOut call = (reply, t')) :
    a.machine.play (Machine.file call) (w, asked) = (reply, { w with files := t' }, asked) := by
  rw [Almanac.play_file, carries]

/-- The directory of a store is made unless it is there, and then there is nothing to make. -/
theorem play_makeDirectory (made : w.files.makeDirectory s.directory = .ok t') :
    a.machine.play s.makeDirectory (w, asked) = (.ok (), { w with files := t' }, asked) := by
  refine (Server.play_then play_contains).trans ?_
  cases there : w.files.found s.directory with
  | true =>
    rw [FileTree.eq_of_makeDirectory made there]
    rfl
  | false =>
    have makes : w.files.carryOut (.makeDirectory s.directory) = (.ok (), t') :=
      congrArg w.files.changed made
    exact Server.play_then (play_file_of makes)

theorem play_attempt {step : Program Machine (Except String Unit)} {m m' : World × Nat}
    (what : String) (succeeds : a.machine.play step m = (.ok (), m')) :
    a.machine.play (attempt what step).run m = (.ok (), m') :=
  Server.play_then succeeds

theorem play_writeFile (h : (ofDirectory directory).Keeps w.files texts) (d : Document)
    (text : String) :
    ∃ t', (ofDirectory directory).Keeps t' (Function.update texts d (some text)) ∧
      a.machine.play ((ofDirectory directory).writeFile ((ofDirectory directory).path d) text).run
        (w, asked) = (.ok (), { w with files := t' }, asked) := by
  obtain ⟨base, made, ready⟩ := h.ready
  obtain ⟨created, written, last, creates, writes, places, after⟩ := ready.replace d text
  replace creates : base.carryOut (.create _) = (.ok (), created) := congrArg base.changed creates
  replace writes : created.carryOut (.write _ text) = (.ok (), written) :=
    congrArg created.changed writes
  have syncs : written.carryOut (.sync (draftPath ((ofDirectory directory).path d))) =
      (.ok (), written) := rfl
  replace places : written.carryOut (.rename _ _) = (.ok (), last) :=
    congrArg written.changed places
  refine ⟨last, after.keeps, ?_⟩
  refine (Server.play_run_then (play_makeDirectory made)).trans ?_
  refine (Server.play_run_then (play_attempt _ (play_file_of creates))).trans ?_
  refine (Server.play_run_then (play_attempt _ (play_file_of writes))).trans ?_
  refine (Server.play_run_then (play_attempt _ (play_file_of syncs))).trans ?_
  exact play_attempt _ (play_file_of places)

theorem play_removeFile (h : (ofDirectory directory).Keeps w.files texts) (d : Document) :
    ∃ t', (ofDirectory directory).Keeps t' (Function.update texts d none) ∧
      a.machine.play (removeFile ((ofDirectory directory).path d)) (w, asked) =
        (.ok (), { w with files := t' }, asked) := by
  have holds := h.holds d
  cases kept : texts d with
  | none =>
    rw [kept] at holds
    refine ⟨w.files, ?_, ?_⟩
    · rwa [← kept, Function.update_eq_self]
    · refine (Server.play_then play_contains).trans ?_
      rw [holds.found_eq]
      rfl
  | some text =>
    rw [kept] at holds
    obtain ⟨place, located, stands⟩ := FileTree.read_ok_iff.1 holds
    have deletes := FileTree.delete_of_file located stands
    rw [FileTree.place_of_locate located] at deletes
    obtain ⟨base, made, ready⟩ := h.ready
    obtain ⟨dir, before⟩ := FileTree.exists_before directory
    have there := FileTree.makeDirectory_of_locate before (names_path before d) located
    obtain rfl : base = w.files := Except.ok.inj (made.symm.trans there)
    refine ⟨_, (ready.remove d).keeps, ?_⟩
    refine (Server.play_then play_contains).trans ?_
    rw [holds.found_eq]
    replace deletes : w.files.carryOut (.delete _) = (.ok (), _) :=
      congrArg w.files.changed deletes
    exact Server.play_then (play_file_of deletes)

/-- A store of files that keeps texts does what is done to the texts. -/
theorem standsIn (a : Almanac) (directory : String) :
    a.machine.StandsIn (ofDirectory directory).carryOut a.papers fun m p =>
      m.2 = p.2 ∧ (ofDirectory directory).Keeps m.1.files p.1 := by
  rintro call ⟨w, asked⟩ ⟨texts, _⟩ ⟨rfl, h⟩
  cases call with
  | read d => exact ⟨_, play_readFile (h.holds d), rfl, h⟩
  | write d text =>
    obtain ⟨t', after, plays⟩ := play_writeFile h d text
    exact ⟨_, Server.play_then plays, rfl, after⟩
  | remove d =>
    obtain ⟨t', after, plays⟩ := play_removeFile h d
    exact ⟨_, plays, rfl, after⟩
  | contains d =>
    refine ⟨_, (Server.play_then play_contains).trans ?_, rfl, h⟩
    rw [(h.holds d).found_eq]
    rfl
  | now => exact ⟨_, rfl, rfl, h⟩
  | freshId => exact ⟨_, rfl, rfl, h⟩
  | processName => exact ⟨_, rfl, rfl, h⟩

end Calls

end FileStore

end HostRoster
